import DocumentStore.Proofs.Statement.Binding
import DocumentStore.Proofs.Text.Words

/- What a text is read as. Blanks around it and semicolons behind it are dropped first
   (`normalize_append`), and each statement comes from the parts of its text by one of four
   constructions, which check it (`read_of_parse`). The container of a writing statement is among
   these parts, so that its names have the form of names (`isName_of_parse`). -/
namespace DocumentStore

open Text

/-! Normalization. -/

namespace Statement

/-- The text without what normalization drops at its end. -/
def trimEnd (cs : List Char) : List Char :=
  dropEndWhile isBlank (dropEndWhile (· == ';') (dropEndWhile isBlank cs))

theorem trimEnd_eq_append (cs : List Char) : ∃ dropped, cs = trimEnd cs ++ dropped ∧
    ∀ c ∈ dropped, isBlank c = true ∨ c = ';' := by
  obtain ⟨first, hfirst, blank⟩ := dropEndWhile_eq_append isBlank cs
  obtain ⟨second, hsecond, semicolon⟩ :=
    dropEndWhile_eq_append (· == ';') (dropEndWhile isBlank cs)
  obtain ⟨third, hthird, blank'⟩ :=
    dropEndWhile_eq_append isBlank (dropEndWhile (· == ';') (dropEndWhile isBlank cs))
  refine ⟨third ++ (second ++ first), ?_, fun c hc => ?_⟩
  · rw [trimEnd, ← List.append_assoc, ← hthird, ← List.append_assoc, ← hsecond, ← hfirst]
  · rcases List.mem_append.mp hc with hc | hc
    · exact .inl (blank' c hc)
    · rcases List.mem_append.mp hc with hc | hc
      · exact .inr (by simpa using semicolon c hc)
      · exact .inl (blank c hc)

variable {cs : List Char} {last : Char}

/-- Only the end of a text changes behind a part that normalization would not drop. -/
theorem normalize_append (first : NoBlankFirst cs) (hlast : cs.getLast? = some last)
    (blank : isBlank last = false) (semicolon : last ≠ ';') (rest : List Char) :
    normalize (cs ++ rest) = cs ++ trimEnd rest := by
  have start : NoBlankFirst (cs ++ rest) := by
    cases cs with
    | nil => cases hlast
    | cons c cs => exact noBlankFirst_cons (first c rfl)
  rw [normalize, trim, skipBlanks_of_noBlankFirst start, dropEndWhile_append hlast blank,
    dropEndWhile_append hlast (by simpa using semicolon), dropEndWhile_append hlast blank, trimEnd]

theorem normalize_behind {text : List Char → List Char} (split : ∀ cs, text cs = text [] ++ cs)
    (first : NoBlankFirst (text [])) (hlast : (text []).getLast? = some '=') (cs : List Char) :
    normalize (text cs) = text (trimEnd cs) := by
  rw [split, normalize_append first hlast (by decide) (by decide), ← split]

theorem trimEnd_eq (hlast : cs.getLast? = some last) (blank : isBlank last = false)
    (semicolon : last ≠ ';') : trimEnd cs = cs := by
  have whole {p : Char → Bool} (stays : p last = false) : dropEndWhile p cs = cs :=
    dropEndWhile_eq fun c hc => by
      rw [hlast] at hc
      cases hc
      exact stays
  rw [trimEnd, whole blank, whole (p := (· == ';')) (by simpa using semicolon), whole blank]

theorem normalize_eq (first : NoBlankFirst cs) (hlast : cs.getLast? = some last)
    (blank : isBlank last = false) (semicolon : last ≠ ';') : normalize cs = cs := by
  have h := normalize_append first hlast blank semicolon []
  rwa [List.append_nil, show trimEnd [] = [] from rfl, List.append_nil] at h

end Statement

/-! Statements. -/

theorem Target.container?_append {c : Container} {rest : List Char} (database : IsName c.database)
    (collection : IsName c.collection) (stop : ∀ d, rest.head? = some d → isName d = false) :
    container? (c.database.toList ++ '.' :: (c.collection.toList ++ rest)) = some (c, rest) := by
  have first : name? (c.database.toList ++ '.' :: (c.collection.toList ++ rest)) =
      some (c.database.toList, '.' :: (c.collection.toList ++ rest)) :=
    run?_append database.toList_ne_nil database.2 fun d h => by cases h; rfl
  have second : name? (c.collection.toList ++ rest) = some (c.collection.toList, rest) :=
    run?_append collection.toList_ne_nil collection.2 stop
  rw [container?, first]
  simp only [char?, if_true, Option.bind_some, second, String.ofList_toList]

theorem Insert.parse?_eq_none {cs : List Char} (insert : keyword? "INSERT" cs = none)
    (upsert : keyword? "UPSERT" cs = none) : parse? cs = none := by
  rw [parse?, parts?, head?, keywords?, keywords?, insert, upsert]
  rfl

theorem Delete.parse?_eq_none {cs : List Char} (delete : keyword? "DELETE" cs = none) :
    parse? cs = none := by
  rw [parse?, parts?, keywords?, delete]
  rfl

theorem Update.parse?_eq_none {cs : List Char} (update : keyword? "UPDATE" cs = none) :
    parse? cs = none := by
  rw [parse?, parts?, update]
  rfl

/-! What each construction checks. -/

theorem Insert.ofLists_eq_ok {container : Container} {upsert : Bool} {fields values : List Char}
    {s : Insert} : ofLists container upsert fields values = .ok s ↔
      ∃ operands, ValueList.operands values = .ok operands ∧
        (fieldsOf fields).length = operands.length ∧
        ⟨container, upsert, fieldsOf fields, operands⟩ = s := by
  rw [ofLists]
  cases ValueList.operands values with
  | error e => simp
  | ok operands => by_cases full : (fieldsOf fields).length = operands.length <;> simp [full]

theorem Delete.ofCondition_eq_ok {container : Container} {id : List Char} {s : Delete} :
    ofCondition container id = .ok s ↔
      ∃ term, IdTerm.parse id = .ok term ∧ term.isEmpty = false ∧ ⟨container, term⟩ = s := by
  rw [ofCondition]
  cases IdTerm.parse id with
  | error e => simp
  | ok term => cases hterm : term.isEmpty <;> simp [hterm]

theorem Update.ofClauses_eq_ok {container : Container} {clause id : List Char} {s : Update} :
    ofClauses container clause id = .ok s ↔
      ∃ term assignments, IdTerm.parse id = .ok term ∧
        ValueList.assignments clause = .ok assignments ∧ term.isEmpty = false ∧
        assignments ≠ [] ∧ ⟨container, term, assignments⟩ = s := by
  rw [ofClauses]
  cases IdTerm.parse id with
  | error e => simp
  | ok term =>
    cases ValueList.assignments clause with
    | error e => simp
    | ok assignments => cases hterm : term.isEmpty <;> cases assignments <;> simp [hterm]

/-- A statement that one of the constructions has made. -/
inductive Statement.Made : Statement → Prop where
  | insert {container : Container} {upsert : Bool} {fields values : List Char} {s : Insert} :
    Insert.ofLists container upsert fields values = .ok s → Made (.insert s)
  | delete {container : Container} {id : List Char} {s : Delete} :
    Delete.ofCondition container id = .ok s → Made (.delete s)
  | update {container : Container} {clause id : List Char} {s : Update} :
    Update.ofClauses container clause id = .ok s → Made (.update s)
  | select {cs : List Char} {s : Select} : Select.parse cs = .ok s → Made (.select s)

/-- A statement with the parts of the normalized text that it has been made from. -/
inductive Statement.Read (cs : List Char) : Statement → Prop where
  | insert {container : Container} {fields values : List Char} {s : Insert} :
    Insert.parts? cs = some (container, fields, values) →
    Insert.ofLists container (Insert.isUpsert cs) fields values = .ok s → Read cs (.insert s)
  | delete {container : Container} {id : List Char} {s : Delete} :
    Delete.parts? cs = some (container, id) →
    Delete.ofCondition container id = .ok s → Read cs (.delete s)
  | update {container : Container} {clause id : List Char} {s : Update} :
    Update.parts? cs = some (container, clause, id) →
    Update.ofClauses container clause id = .ok s → Read cs (.update s)
  | select {s : Select} : Select.parse cs = .ok s → Read cs (.select s)

theorem Statement.read_of_parse {text : String} {s : Statement} (h : parse text = .ok s) :
    Read (normalize text.toList) s := by
  unfold parse ofNormalized at h
  split at h
  next parsed hparsed =>
    obtain ⟨s, rfl, rfl⟩ := map_eq_ok h
    obtain ⟨⟨container, fields, values⟩, hparts, hs⟩ := Option.map_eq_some_iff.mp hparsed
    exact .insert hparts hs
  next =>
    split at h
    next parsed hparsed =>
      obtain ⟨s, rfl, rfl⟩ := map_eq_ok h
      obtain ⟨⟨container, id⟩, hparts, hs⟩ := Option.map_eq_some_iff.mp hparsed
      exact .delete hparts hs
    next =>
      split at h
      next parsed hparsed =>
        obtain ⟨s, rfl, rfl⟩ := map_eq_ok h
        obtain ⟨⟨container, clause, id⟩, hparts, hs⟩ := Option.map_eq_some_iff.mp hparsed
        exact .update hparts hs
      next =>
        split at h
        next =>
          obtain ⟨s, hs, rfl⟩ := map_eq_ok h
          exact .select hs
        next => cases h

theorem Statement.made_of_parse {text : String} {s : Statement} (h : parse text = .ok s) :
    s.Made := by
  cases read_of_parse h with
  | insert hparts hs => exact .insert hs
  | delete hparts hs => exact .delete hs
  | update hparts hs => exact .update hs
  | select hs => exact .select hs

/-! Names of containers. -/

theorem Target.isName_of_container? {cs rest : List Char} {c : Container}
    (h : container? cs = some (c, rest)) : IsName c.database ∧ IsName c.collection := by
  have named {cs name rest : List Char} (h : name? cs = some (name, rest)) :
      IsName (String.ofList name) := by
    obtain ⟨nonempty, taken, -⟩ := run?_eq_some.mp h
    refine ⟨fun none => nonempty (String.ofList_eq_empty_iff.mp none), fun c hc => ?_⟩
    rw [String.toList_ofList, ← taken] at hc
    exact List.mem_takeWhile_imp hc
  unfold container? at h
  split at h
  · cases h
  next database cs hdatabase =>
    split at h
    · cases h
    next collection cs hcollection =>
      cases h
      obtain ⟨behind, -, second⟩ := Option.bind_eq_some_iff.mp hcollection
      exact ⟨named hdatabase, named second⟩

namespace Statement

/-- The container of the document or the documents that a statement is about. -/
def container : Statement → Container
  | .insert s => s.container
  | .delete s => s.container
  | .update s => s.container
  | .select s => s.container

theorem Read.exists_container? {cs : List Char} {s : Statement} (h : Read cs s)
    (writes : ∀ q, s ≠ .select q) :
    ∃ behind rest, Target.container? behind = some (s.container, rest) := by
  -- The container is what stands behind the first keywords.
  have named {head : Option (List Char)} {c : Container} {rest : List Char}
      (found : head.bind Target.container? = some (c, rest)) (same : s.container = c) :
      ∃ behind rest, Target.container? behind = some (s.container, rest) := by
    obtain ⟨behind, -, found⟩ := Option.bind_eq_some_iff.mp found
    exact ⟨behind, rest, same.symm ▸ found⟩
  cases h with
  | insert hparts hs =>
    unfold Insert.parts? at hparts
    split at hparts
    · cases hparts
    next found =>
      split at hparts
      · cases hparts
      · split at hparts
        · cases hparts
          obtain ⟨operands, -, -, rfl⟩ := Insert.ofLists_eq_ok.mp hs
          exact named found rfl
        · cases hparts
  | delete hparts hs =>
    unfold Delete.parts? at hparts
    split at hparts
    · cases hparts
    next found =>
      obtain ⟨id, -, same⟩ := Option.map_eq_some_iff.mp hparts
      cases same
      obtain ⟨term, -, -, rfl⟩ := Delete.ofCondition_eq_ok.mp hs
      exact named found rfl
  | update hparts hs =>
    unfold Update.parts? at hparts
    split at hparts
    · cases hparts
    next found =>
      obtain ⟨clauses, -, same⟩ := Option.map_eq_some_iff.mp hparts
      cases same
      obtain ⟨term, assignments, -, -, -, -, rfl⟩ := Update.ofClauses_eq_ok.mp hs
      exact named found rfl
  | select hs => exact absurd rfl (writes _)

/-- **The names of a container** in a writing statement hold nothing but word characters and
    hyphens. -/
theorem isName_of_parse {text : String} {s : Statement} (h : parse text = .ok s)
    (writes : ∀ q, s ≠ .select q) : IsName s.container.database ∧ IsName s.container.collection := by
  obtain ⟨behind, rest, found⟩ := (read_of_parse h).exists_container? writes
  exact Target.isName_of_container? found

end Statement

end DocumentStore
