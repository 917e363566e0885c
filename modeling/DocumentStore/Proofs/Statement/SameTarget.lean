import DocumentStore.Proofs.Statement.UpdateText
import DocumentStore.Proofs.Store.Content

/- A DELETE and an UPDATE with the same text for the id. Both read the id in the same way
   (`Delete.Spelling.Of.parse`, `Update.Spelling.Of.parse_last`), but a DELETE reads it behind its
   first condition and an UPDATE behind the last one in the text. So they are about the same document
   exactly if the text for the id opens no condition (`Statement.same_target_iff`): if it does, the
   UPDATE takes its own condition for an assignment, which it is not. -/
namespace DocumentStore

open Text

variable {container : Container} {id cs word key : List Char}

/-! A DELETE. -/

namespace Delete

/-- How the parts of a statement are spelled, up to its id. -/
structure Spelling where
  verb : List Char
  source : List Char
  word : List Char
  key : List Char

/-- The statement in this spelling. -/
def Spelling.text (w : Spelling) (container : Container) (id : List Char) : List Char :=
  w.verb ++ ' ' :: (w.source ++ ' ' :: (container.database.toList ++ '.' ::
    (container.collection.toList ++ ' ' :: (w.word ++ ' ' :: (w.key ++ '=' :: id)))))

/-- The spelling is one of a statement on the container. -/
structure Spelling.Of (w : Spelling) (container : Container) : Prop where
  verb : Spells "DELETE" w.verb
  source : Spells "FROM" w.source
  database : IsName container.database
  collection : IsName container.collection
  word : Spells "WHERE" w.word
  key : Spells "id" w.key

variable {w : Spelling}

theorem ofCondition_eq (container : Container) (id : List Char) :
    (ofCondition container id).map .delete =
      Statement.withId (fun term => .delete ⟨container, term⟩) id := by
  rw [ofCondition, Statement.withId]
  cases IdTerm.parse id with
  | error e => rfl
  | ok term => cases hterm : term.isEmpty <;> simp [Except.bind, Except.map, hterm]

theorem Spelling.Of.parse?_eq (h : w.Of container) (id : List Char) :
    parse? (w.text container id) = some (ofCondition container (skipBlanks id)) := by
  have first (rest : List Char) : NoBlankFirst (w.source ++ rest) :=
    h.source.noBlankFirst (k := 'F') rfl (by decide) rest
  have second (rest : List Char) : NoBlankFirst (w.word ++ rest) :=
    h.word.noBlankFirst (k := 'W') rfl (by decide) rest
  have container := Target.container?_append h.database h.collection
    (stop_cons (c := ' ') (by decide) (w.word ++ ' ' :: (w.key ++ '=' :: id)))
  rw [parse?, parts?, Spelling.text, keywords?_append h.verb h.source (first _)
    (h.database.noBlankFirst _), Option.bind_some, container]
  simp only [blanks?_space (second _), Option.bind_some, Target.condition?_text h.word h.key,
    Option.map_some]

theorem Spelling.Of.normalize (h : w.Of container) (id : List Char) :
    Statement.normalize (w.text container id) = w.text container (Statement.trimEnd id) := by
  have split (id : List Char) : w.text container id = w.text container [] ++ id := by
    simp [Spelling.text]
  have last : (w.text container []).getLast? = some '=' := by
    simp [Spelling.text, List.getLast?_append, List.getLast?_cons]
  exact Statement.normalize_behind split (h.verb.noBlankFirst (k := 'D') rfl (by decide) _) last id

/-- **A DELETE** is read back from its text, with the id that stands behind its condition. -/
theorem Spelling.Of.parse (h : w.Of container) (id : List Char) :
    Statement.parse (String.ofList (w.text container id)) =
      Statement.withId (fun term => .delete ⟨container, term⟩) (Statement.trimEnd id) := by
  have insert : Insert.parse? (w.text container (Statement.trimEnd id)) = none :=
    Insert.parse?_eq_none (keyword?_of_spells h.verb (by decide) (by decide) _)
      (keyword?_of_spells h.verb (by decide) (by decide) _)
  rw [Statement.parse, String.toList_ofList, h.normalize, Statement.ofNormalized, insert,
    h.parse?_eq]
  simp only [ofCondition_eq, Statement.withId_skipBlanks]

end Delete

/-! An UPDATE whose id opens a condition. -/

/-- A condition is no assignment: no equals sign follows the word WHERE. -/
theorem ValueList.field_condition (hword : Spells "WHERE" word) (hkey : Spells "id" key)
    (rest : List Char) :
    ∃ e more, field (word ++ ' ' :: (key ++ '=' :: rest)) = (.error e, more) := by
  have letters : ∀ c ∈ word, isFieldName c = true := hword.class (by decide) (by decide)
  have start : NoBlankFirst (word ++ ' ' :: (key ++ '=' :: rest)) :=
    hword.noBlankFirst (k := 'W') rfl (by decide) _
  obtain ⟨taken, left⟩ := run_append letters
    (stop_cons (p := isFieldName) (c := ' ') (by decide) (key ++ '=' :: rest))
  obtain ⟨k, tail, rfl, hk⟩ := hkey.exists_cons (k := 'i') rfl
  have behind : skipBlanks (' ' :: (k :: tail ++ '=' :: rest)) = k :: (tail ++ '=' :: rest) :=
    skipBlanks_space (hkey.noBlankFirst (k := 'i') rfl (by decide) _)
  simp only [field, skipBlanks_of_noBlankFirst start, taken, left, behind]
  split
  next equals =>
    obtain ⟨rfl, -⟩ := List.cons.inj equals
    exact absurd hk (by decide)
  next => exact ⟨_, _, rfl⟩

theorem ValueList.assignments_condition {found : List (String × Operand)}
    (h : Listed Assigned found cs) (some : found ≠ []) (hword : Spells "WHERE" word)
    (hkey : Spells "id" key) (rest : List Char) :
    ∃ e, assignments (' ' :: (cs ++ ' ' :: (word ++ ' ' :: (key ++ '=' :: rest)))) = .error e := by
  obtain ⟨w, tail, hw, letter⟩ := hword.exists_cons (k := 'W') rfl
  have plain : isBlank w = false := isBlank_of_toLower (letter ▸ by decide)
  have comma : w ≠ ',' := by
    intro comma
    rw [comma] at letter
    exact absurd letter (by decide)
  have stop : NoGapFirst (word ++ ' ' :: (key ++ '=' :: rest)) := by
    rw [hw]
    exact noGapFirst_cons plain comma
  have more : atEnd (word ++ ' ' :: (key ++ '=' :: rest)) = false := by
    rw [hw, List.cons_append, atEnd, skipBlanks_cons plain]
    rfl
  obtain ⟨e, left, hfield⟩ := field_condition hword hkey rest
  have refused (clause : List Char) :
      assignment clause (word ++ ' ' :: (key ++ '=' :: rest)) = (.error e, left) := by
    rw [assignment, more, hfield]
    rfl
  exact ⟨e, assignments_listed h some stop (.fault (refused _))⟩

namespace Update

variable {w : Spelling} {assignments : List (String × Operand)}

theorem ofClauses_eq_error {clause : List Char} {e : Error}
    (h : ValueList.assignments clause = .error e) (container : Container) (id : List Char) :
    ∃ e, ofClauses container clause id = .error e := by
  rw [ofClauses, h]
  cases IdTerm.parse id with
  | error fault => exact ⟨fault, rfl⟩
  | ok term => exact ⟨e, rfl⟩

/-- The text is cut inside the id, and what stands before is not all assignments. -/
theorem Spelling.Of.parse_opens (h : w.Of container assignments) (more : Target.Opens none id) :
    ∃ e, Statement.parse (String.ofList (w.text container id)) = .error e := by
  have more : Target.Opens (some '=') (Statement.trimEnd id) :=
    (Target.opens_of_boundary rfl).mpr (Target.opens_trimEnd.mpr more)
  obtain ⟨⟨head, found⟩, later⟩ :=
    Option.ne_none_iff_exists'.mp (mt clauses?_eq_none_iff.mp (not_not_intro more))
  have equals : (' ' :: (w.assignments ++ ' ' :: (w.word ++ ' ' :: (w.key ++ ['='])))).getLast?.or
      (some 'T') = some '=' := by
    simp [List.getLast?_append, List.getLast?_cons]
  rw [← equals] at later
  have cut := clauses?_append later
  have split (cs : List Char) :
      ' ' :: (w.assignments ++ ' ' :: (w.word ++ ' ' :: (w.key ++ ['=']))) ++ cs =
        ' ' :: (w.assignments ++ ' ' :: (w.word ++ ' ' :: (w.key ++ '=' :: cs))) := by
    simp
  rw [split, split] at cut
  obtain ⟨fault, hclause⟩ :=
    ValueList.assignments_condition h.assignments h.assigned h.word h.key head
  obtain ⟨e, hstatement⟩ := ofClauses_eq_error hclause container found
  have parsed : parse? (w.text container (Statement.trimEnd id)) = some (.error e) := by
    rw [h.parse?_eq, cut, Option.map_some]
    exact congrArg some hstatement
  refine ⟨e, ?_⟩
  rw [Statement.parse, String.toList_ofList, h.normalize]
  exact ofNormalized_update h.verb _ parsed

end Update

/-! The documents that the two are about. -/

namespace Statement

/-- The document that the statement is about, if it removes or updates one. -/
def target? : Statement → Option (Container × IdTerm)
  | .delete s => some (s.container, s.id)
  | .update s => some (s.container, s.id)
  | .insert _ | .select _ => none

/-- The id alone decides which document a statement is about. -/
theorem exists_withId_iff {make : IdTerm → Statement}
    (hmake : ∀ term, (make term).target? = some (container, term)) {target : Container × IdTerm} :
    (∃ s, withId make id = .ok s ∧ s.target? = some target) ↔
      IdTerm.parse id = .ok target.2 ∧ target.2.isEmpty = false ∧ target.1 = container := by
  constructor
  · intro h
    obtain ⟨s, hs, htarget⟩ := h
    obtain ⟨term, hterm, present, rfl⟩ := withId_eq_ok.mp hs
    rw [hmake] at htarget
    cases htarget
    exact ⟨hterm, present, rfl⟩
  · intro h
    obtain ⟨hterm, present, rfl⟩ := h
    exact ⟨make target.2, withId_eq_ok.mpr ⟨_, hterm, present, rfl⟩, hmake _⟩

variable {v : Delete.Spelling} {w : Update.Spelling} {assignments : List (String × Operand)}

/-- **A DELETE and an UPDATE** with the same text for the id are about the same document exactly if
    the text opens no condition. -/
theorem same_target_iff (h : v.Of container) (h' : w.Of container assignments) (t : String)
    (target : Container × IdTerm) :
    (∃ s, parse (String.ofList (w.text container t.toList)) = .ok s ∧ s.target? = some target) ↔
      (∃ s, parse (String.ofList (v.text container t.toList)) = .ok s ∧ s.target? = some target) ∧
        ¬Target.Opens none t.toList := by
  by_cases more : Target.Opens none t.toList
  · obtain ⟨e, failed⟩ := h'.parse_opens more
    constructor
    · intro found
      obtain ⟨s, hs, -⟩ := found
      rw [failed] at hs
      cases hs
    · intro found
      exact absurd more found.2
  · rw [h.parse, h'.parse_last more, exists_withId_iff fun _ => rfl, exists_withId_iff fun _ => rfl]
    exact (and_iff_left more).symm

/-- The id has the word WHERE in it, but no condition. -/
theorem same_target_where :
    let target : Container × IdTerm := (⟨"db", "coll"⟩, .literal "o1 where x=1")
    ∃ s, parse "UPDATE db.coll SET a=1 WHERE id= \"o1 where x=1\" ;" = .ok s ∧
      s.target? = some target := by
  intro target
  let one : Json.Whole := ⟨1, by decide⟩
  let w : Update.Spelling := ⟨"UPDATE".toList, "SET".toList,
    "a".toList ++ '=' :: (Json.Number.whole one).toNumeral.render ++ ([] ++ []),
    "WHERE".toList, "id".toList⟩
  let v : Delete.Spelling := ⟨"DELETE".toList, "FROM".toList, "WHERE".toList, "id".toList⟩
  have assigned : Assigned ("a", .literal (.number (.whole one)))
      ("a".toList ++ '=' :: (Json.Number.whole one).toNumeral.render) :=
    .intro (by decide) (.whole one)
  have h' : w.Of target.1 [("a", .literal (.number (.whole one)))] :=
    { verb := by decide
      database := by decide
      collection := by decide
      set := by decide
      assignments := .cons assigned gap_nil (fun h => absurd rfl h) .nil
      assigned := List.cons_ne_nil _ _
      word := by decide
      key := by decide }
  have h : v.Of target.1 :=
    { verb := by decide
      source := by decide
      database := by decide
      collection := by decide
      word := by decide
      key := by decide }
  have deleted : parse (String.ofList (v.text target.1 " \"o1 where x=1\" ;".toList)) =
      .ok (.delete ⟨target.1, target.2⟩) := eq_ok_of_toOption (by decide +kernel)
  have last : ¬Target.Opens none " \"o1 where x=1\" ;".toList :=
    Update.clauses?_eq_none_iff.mp (by decide +kernel)
  have found := (same_target_iff h h' " \"o1 where x=1\" ;" target).mpr ⟨⟨_, deleted, rfl⟩, last⟩
  have text : String.ofList (w.text target.1 " \"o1 where x=1\" ;".toList) =
      "UPDATE db.coll SET a=1 WHERE id= \"o1 where x=1\" ;" := by decide +kernel
  rwa [text] at found

/-- A document that a DELETE can remove and no UPDATE can change: the id holds a condition. -/
theorem not_same_target :
    parse "DELETE FROM db.coll WHERE id=\"x WHERE id=y\"" =
        .ok (.delete ⟨⟨"db", "coll"⟩, .literal "x WHERE id=y"⟩) ∧
      parse "UPDATE db.coll SET a=1 WHERE id=\"x WHERE id=y\"" = .error (.parse (.id "y\"")) := by
  decide +kernel

end Statement

end DocumentStore
