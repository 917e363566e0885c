import DocumentStore.Proofs.Statement.Condition
import DocumentStore.Proofs.Statement.ValueListText

/- An UPDATE is read back from its text, in any case of its keywords and with anything inside its
   values (`Update.parse_spelled`). The text is cut at its last condition, so the values may hold
   conditions of their own, but the id may not: it is one that the word WHERE does not stand in. -/
namespace DocumentStore

open Json (Value)
open Text

variable {cs gap rest : List Char}

/-! The id. -/

/-- A way to spell an id. -/
inductive IdTerm.Spelled : IdTerm → List Char → Prop where
  | placeholder {sigil : Char} {digits : List Char} {index : Nat} :
    Placeholder.isSigil sigil = true → index? digits = some index → index ≠ 0 →
      Spelled (.placeholder index) (sigil :: digits)
  /-- Any characters may stand between the quotes, further quotes among them. -/
  | literal {text : String} : text ≠ "" → NoBlankFirst text.toList → NoBlankLast text.toList →
    ¬HasWord "WHERE" text.toList → Spelled (.literal text) ('"' :: (text.toList ++ ['"']))

namespace IdTerm

variable {id : IdTerm} {text : List Char}

theorem isDigit_getLast? {index : Nat} (h : index? cs = some index) (sigil : Char) :
    ∃ last, (sigil :: cs).getLast? = some last ∧ last.isDigit = true := by
  obtain ⟨nonempty, digits⟩ := digits_of_index? h
  rw [List.getLast?_cons, List.getLast?_eq_some_getLast nonempty]
  exact ⟨_, rfl, digits _ (List.getLast_mem nonempty)⟩

theorem Spelled.getLast? (h : id.Spelled text) :
    ∃ last, text.getLast? = some last ∧ isBlank last = false ∧ last ≠ ';' := by
  cases h with
  | @placeholder sigil digits index _ hindex _ =>
    obtain ⟨last, hlast, digit⟩ := isDigit_getLast? hindex sigil
    refine ⟨last, hlast, ?_, ?_⟩
    · exact class_of_isDigit (by decide) digit
    · have plain : (last == ';') = false :=
        class_of_isDigit (p := (· == ';')) (by decide) digit
      simpa using plain
  | literal => exact ⟨'"', by simp [List.getLast?_cons], by decide, by decide⟩

theorem Spelled.noBlankFirst (h : id.Spelled text) : NoBlankFirst text := by
  cases h with
  | placeholder hsigil _ _ =>
    exact noBlankFirst_cons (isBlank_of_class
      (fun _ => class_of_isBlank (by decide +kernel)) hsigil)
  | literal => exact noBlankFirst_cons (by decide)

theorem Spelled.isEmpty (h : id.Spelled text) : id.isEmpty = false := by
  cases h with
  | placeholder => rfl
  | literal nonempty _ _ _ => simpa [IdTerm.isEmpty] using nonempty

/-- No condition opens in an id. -/
theorem Spelled.not_opens (h : id.Spelled text) : ¬Target.Opens none text := by
  cases h with
  | @placeholder sigil digits index hsigil hindex _ =>
    have plain : ∀ c ∈ sigil :: digits, sameFolded 'W' c = false := by
      refine List.forall_mem_cons.mpr ⟨?_, fun c hc => ?_⟩
      · exact class_of_isSigil (p := sameFolded 'W') (by decide) hsigil
      · exact class_of_isDigit (p := sameFolded 'W') (by decide)
          ((digits_of_index? hindex).2 c hc)
    have none : Update.clauses? none ((sigil :: digits) ++ []) = none :=
      Update.clauses?_plain plain rfl
    rw [List.append_nil] at none
    exact Update.clauses?_eq_none_iff.mp none
  | @literal text _ _ _ word =>
    rw [Target.opens_cons, not_or]
    refine ⟨fun h => ?_, fun h => word (Target.hasWord_of_opens h)⟩
    cases h.2

theorem ofTrimmed_placeholder {sigil : Char} {index : Nat}
    (hsigil : Placeholder.isSigil sigil = true) (hindex : index? cs = some index)
    (positive : index ≠ 0) : ofTrimmed (sigil :: cs) = .ok (.placeholder index) := by
  obtain ⟨last, hlast, digit⟩ := isDigit_getLast? hindex sigil
  have opened : ((sigil :: cs).head? == some '"') = false :=
    class_of_isSigil (p := fun c => some c == some '"') (by decide) hsigil
  have closed : ((sigil :: cs).getLast? == some '"') = false := by
    rw [hlast]
    exact class_of_isDigit (p := fun c => some c == some '"') (by decide) digit
  have mentions : mentionsPlaceholder (sigil :: cs) = true := by
    obtain ⟨nonempty, all⟩ := digits_of_index? hindex
    obtain ⟨d, digits, rfl⟩ := List.exists_cons_of_ne_nil nonempty
    have hd : isDecimalDigit d = true := class_of_isDigit (by decide) (all d List.mem_cons_self)
    simp [mentionsPlaceholder, hsigil, hd]
  have found : Placeholder.ofText? (sigil :: cs) = some index := by
    rw [Placeholder.ofText?, if_pos hsigil, hindex]
  obtain ⟨index, rfl⟩ := Nat.exists_eq_succ_of_ne_zero positive
  simp only [ofTrimmed, opened, closed, Bool.and_false, bne_self_eq_false, Bool.false_eq_true,
    if_false, mentions, if_true, found]

theorem ofTrimmed_quoted (content : List Char) :
    ofTrimmed ('"' :: (content ++ ['"'])) = .ok (.literal (String.ofList (trim content))) := by
  have closed : ('"' :: (content ++ ['"'])).getLast? = some '"' := by
    simp [List.getLast?_cons]
  simp [ofTrimmed, closed]

theorem parse_text (h : id.Spelled text) : parse text = .ok id := by
  obtain ⟨last, hlast, blank, -⟩ := h.getLast?
  have trimmed : trim text = text := trim_eq h.noBlankFirst fun c hc => by
    rw [hlast] at hc
    cases hc
    exact blank
  rw [parse, trimmed]
  cases h with
  | placeholder hsigil hindex positive => exact ofTrimmed_placeholder hsigil hindex positive
  | literal _ first last _ => rw [ofTrimmed_quoted, trim_eq first last, String.ofList_toList]

end IdTerm

namespace Statement

/-- The statement about the document whose id the text denotes. -/
def withId (make : IdTerm → Statement) (id : List Char) : Except Error Statement :=
  (IdTerm.parse id).bind fun term =>
    if term.isEmpty then .error (.validation .missingId) else .ok (make term)

theorem withId_eq_ok {make : IdTerm → Statement} {id : List Char} {s : Statement} :
    withId make id = .ok s ↔
      ∃ term, IdTerm.parse id = .ok term ∧ term.isEmpty = false ∧ make term = s := by
  rw [withId]
  cases IdTerm.parse id with
  | error e => simp [Except.bind]
  | ok term => cases hterm : term.isEmpty <;> simp [Except.bind, hterm]

theorem withId_skipBlanks (make : IdTerm → Statement) (id : List Char) :
    withId make (skipBlanks id) = withId make id := by
  rw [withId, withId, IdTerm.parse, IdTerm.parse, trim, trim,
    skipBlanks_of_noBlankFirst (noBlankFirst_skipBlanks id)]

end Statement

/-! The assignments. -/

/-- A name of an assigned field: letters, numbers, underscores and hyphens. -/
def IsFieldName (name : String) : Prop :=
  name ≠ "" ∧ ∀ c ∈ name.toList, isFieldName c = true

instance (name : String) : Decidable (IsFieldName name) :=
  inferInstanceAs (Decidable (_ ∧ _))

/-- A way to write an assignment. -/
inductive Assigned : String × Operand → List Char → Prop where
  | intro {name : String} {operand : Operand} {text : List Char} : IsFieldName name →
    operand.Spelled text → Assigned (name, operand) (name.toList ++ '=' :: text)

theorem isFieldName_of_isBlank {c : Char} (h : isBlank c = true) : isFieldName c = false := by
  have others : (c == '_' || c == '-') = false :=
    class_of_isBlank (p := fun c => c == '_' || c == '-') (by decide) h
  rw [isFieldName, isAlphanumeric_of_isBlank h, Bool.or_assoc, others]
  rfl

theorem exists_cons_of_isFieldName {name : String} (h : IsFieldName name) :
    ∃ c cs, name.toList = c :: cs ∧ isBlank c = false ∧ c ≠ ',' := by
  obtain ⟨c, cs, hname⟩ := List.exists_cons_of_ne_nil (toList_ne_nil h.1)
  have hc : isFieldName c = true := h.2 c (hname ▸ List.mem_cons_self)
  refine ⟨c, cs, hname, isBlank_of_class (fun _ => isFieldName_of_isBlank) hc, ?_⟩
  rintro rfl
  cases hc

theorem exists_cons_of_assigned {assignment : String × Operand} {text : List Char}
    (h : Assigned assignment text) : ∃ c cs, text = c :: cs ∧ isBlank c = false ∧ c ≠ ',' := by
  obtain ⟨hname, -⟩ := h
  obtain ⟨c, cs, hcs, plain⟩ := exists_cons_of_isFieldName hname
  exact ⟨c, _, by rw [hcs]; rfl, plain⟩

namespace ValueList

theorem field_append {name : String} (h : IsFieldName name) (rest : List Char) :
    field (name.toList ++ '=' :: rest) = (.ok name, rest) := by
  obtain ⟨taken, left⟩ := run_append h.2 (stop_cons (p := isFieldName) (c := '=') (by decide) rest)
  have start : NoBlankFirst (name.toList ++ '=' :: rest) :=
    noBlankFirst_append (toList_ne_nil h.1)
      (fun c hc => isBlank_of_class (fun _ => isFieldName_of_isBlank) (h.2 c hc)) _
  obtain ⟨c, cs, hname⟩ := List.exists_cons_of_ne_nil (toList_ne_nil h.1)
  have whole : String.ofList (c :: cs) = name := by rw [← hname, String.ofList_toList]
  simp only [field, skipBlanks_of_noBlankFirst start, taken, left,
    skipBlanks_cons (show isBlank '=' = false by decide)]
  simp only [hname, whole]

theorem assignment_assigned {found : String × Operand} {text : List Char} (h : Assigned found text)
    (hgap : Gap gap) (last : gap = [] → rest = []) (stop : NoGapFirst rest) (clause : List Char) :
    assignment clause (text ++ (gap ++ rest)) = (.ok (some found), rest) := by
  have more : atEnd (text ++ (gap ++ rest)) = false := by
    obtain ⟨c, cs, rfl, blank, -⟩ := exists_cons_of_assigned h
    rw [List.cons_append, atEnd, skipBlanks_cons blank]
    rfl
  obtain ⟨hname, hoperand⟩ := h
  rw [List.append_assoc, List.cons_append] at more ⊢
  simp only [assignment, more, Bool.false_eq_true, if_false, field_append hname,
    next_spelled hoperand hgap last stop]

theorem assignment_space (clause cs : List Char) :
    assignment clause (' ' :: cs) = assignment clause cs := by
  have skipped : skipBlanks (' ' :: cs) = skipBlanks cs := rfl
  have same : field (' ' :: cs) = field cs := by rw [field, field, skipped]
  rw [assignment, assignment, atEnd, atEnd, skipped, same]

/-- **The assignments of a clause** are read, whatever gaps are between them, and then what
    follows. -/
theorem assignments_listed {found others : List (String × Operand)} {ending : Option Error}
    (h : Listed Assigned found cs) (some : found ≠ []) (stop : NoGapFirst rest)
    (behind : Loops (assignment (' ' :: (cs ++ ' ' :: rest))) rest others ending) :
    assignments (' ' :: (cs ++ ' ' :: rest)) = outcome (found ++ others) ending := by
  have blank : ∀ c ∈ [' '], isBlank c = true := by decide
  have loops := h.loops (fun hitem hgap last stop => assignment_assigned hitem hgap last stop _)
    (fun _ _ => exists_cons_of_assigned) blank (fun none => absurd none some) nofun stop behind
  exact (shortens_assignment _).collect_eq (loops.congr (assignment_space _ _))

end ValueList

/-! The whole statement. -/

namespace Update

/-- How the parts of a statement are spelled, up to its id. -/
structure Spelling where
  verb : List Char
  set : List Char
  assignments : List Char
  word : List Char
  key : List Char

/-- The statement in this spelling. -/
def Spelling.text (w : Spelling) (container : Container) (id : List Char) : List Char :=
  w.verb ++ ' ' :: (container.database.toList ++ '.' :: (container.collection.toList ++
    ' ' :: (w.set ++ ' ' :: (w.assignments ++ ' ' :: (w.word ++ ' ' :: (w.key ++ '=' :: id))))))

/-- The spelling is one of a statement that assigns something in the container. -/
structure Spelling.Of (w : Spelling) (container : Container)
    (found : List (String × Operand)) : Prop where
  verb : Spells "UPDATE" w.verb
  database : IsName container.database
  collection : IsName container.collection
  set : Spells "SET" w.set
  assignments : Listed Assigned found w.assignments
  assigned : found ≠ []
  word : Spells "WHERE" w.word
  key : Spells "id" w.key

variable {w : Spelling} {container : Container} {assignments : List (String × Operand)}
  {id verb set : List Char} {term : IdTerm}

theorem parts?_append (hverb : Spells "UPDATE" verb) (database : IsName container.database)
    (collection : IsName container.collection) (hset : Spells "SET" set) (rest : List Char) :
    parts? (verb ++ ' ' :: (container.database.toList ++ '.' :: (container.collection.toList ++
        ' ' :: (set ++ ' ' :: rest)))) =
      (clauses? (some 'T') (' ' :: rest)).map fun (clause, id) => (container, clause, id) := by
  have read := Target.container?_append database collection
    (stop_cons (c := ' ') (by decide) (set ++ ' ' :: rest))
  have ends : set? (set ++ ' ' :: rest) = some (' ' :: rest) := by
    rw [set?, keyword?_append hset]
    rfl
  rw [parts?, keyword?_append hverb, Option.bind_some, blanks?_space (database.noBlankFirst _),
    Option.bind_some, read]
  simp only [blanks?_space (hset.noBlankFirst (k := 'S') rfl (by decide) (' ' :: rest)),
    Option.bind_some, ends]

theorem ofNormalized_update (hverb : Spells "UPDATE" verb) (rest : List Char)
    {s : Except Error Update} (h : parse? (verb ++ rest) = some s) :
    Statement.ofNormalized (verb ++ rest) = s.map .update := by
  have insert : Insert.parse? (verb ++ rest) = none :=
    Insert.parse?_eq_none (keyword?_of_spells hverb (by decide) (by decide) rest)
      (keyword?_of_spells hverb (by decide) (by decide) rest)
  have delete : Delete.parse? (verb ++ rest) = none :=
    Delete.parse?_eq_none (keyword?_of_spells hverb (by decide) (by decide) rest)
  rw [Statement.ofNormalized, insert, delete, h]

theorem ofClauses_eq {clause : List Char} (hclause : ValueList.assignments clause = .ok assignments)
    (assigned : assignments ≠ []) (id : List Char) :
    (ofClauses container clause id).map .update =
      Statement.withId (fun term => .update ⟨container, term, assignments⟩) id := by
  have some : assignments.isEmpty = false := by simpa using assigned
  rw [ofClauses, Statement.withId, hclause]
  cases IdTerm.parse id with
  | error e => rfl
  | ok term =>
    simp only [some, Except.bind, Bool.false_eq_true, if_false]
    split <;> rfl

theorem Spelling.Of.normalize (h : w.Of container assignments) (id : List Char) :
    Statement.normalize (w.text container id) = w.text container (Statement.trimEnd id) := by
  have split (id : List Char) : w.text container id = w.text container [] ++ id := by
    simp [Spelling.text]
  have last : (w.text container []).getLast? = some '=' := by
    simp [Spelling.text, List.getLast?_append, List.getLast?_cons]
  exact Statement.normalize_behind split (h.verb.noBlankFirst (k := 'U') rfl (by decide) _) last id

theorem Spelling.Of.parse?_eq (h : w.Of container assignments) (id : List Char) :
    parse? (w.text container id) =
      (clauses? (some 'T') (' ' :: (w.assignments ++ ' ' :: (w.word ++ ' ' ::
        (w.key ++ '=' :: id))))).map fun (clause, id) => ofClauses container clause id := by
  rw [parse?, Spelling.text, parts?_append h.verb h.database h.collection h.set, Option.map_map]
  rfl

/-- The text is cut before its condition if the id opens no other. -/
theorem Spelling.Of.parse?_last (h : w.Of container assignments) (last : ¬Target.Opens none id) :
    parse? (w.text container id) =
      some (ofClauses container (' ' :: (w.assignments ++ [' '])) (skipBlanks id)) := by
  have boundary : ((' ' :: (w.assignments ++ [' '])).getLast?.or (some 'T')).any isWord =
      false := by
    simp [List.getLast?_cons, List.getLast?_append]
    decide
  have cut := clauses?_condition h.word h.key boundary last
  have split : ' ' :: (w.assignments ++ [' ']) ++ (w.word ++ ' ' :: (w.key ++ '=' :: id)) =
      ' ' :: (w.assignments ++ ' ' :: (w.word ++ ' ' :: (w.key ++ '=' :: id))) := by
    simp
  rw [split] at cut
  rw [h.parse?_eq, cut, Option.map_some]

theorem Spelling.Of.clause (h : w.Of container assignments) :
    ValueList.assignments (' ' :: (w.assignments ++ [' '])) = .ok assignments := by
  have read := ValueList.assignments_listed h.assignments h.assigned (show NoGapFirst [] by nofun)
    (.done rfl)
  rw [read, ValueList.outcome, List.append_nil]

/-- The statement that a text denotes has the id that stands behind the last condition. -/
theorem Spelling.Of.parse_last (h : w.Of container assignments) (last : ¬Target.Opens none id) :
    Statement.parse (String.ofList (w.text container id)) =
      Statement.withId (fun term => .update ⟨container, term, assignments⟩)
        (Statement.trimEnd id) := by
  have parsed := h.parse?_last (mt Target.opens_trimEnd.mp last)
  rw [Statement.parse, String.toList_ofList, h.normalize, Spelling.text,
    ofNormalized_update h.verb _ parsed, ofClauses_eq h.clause h.assigned,
    Statement.withId_skipBlanks]

/-- **An UPDATE** is read back from its text in any spelling. -/
theorem parse_spelled (h : w.Of container assignments) (hid : term.Spelled id) :
    Statement.parse (String.ofList (w.text container id)) =
      .ok (.update ⟨container, term, assignments⟩) := by
  obtain ⟨last, hlast, blank, semicolon⟩ := hid.getLast?
  rw [h.parse_last hid.not_opens, Statement.trimEnd_eq hlast blank semicolon]
  exact Statement.withId_eq_ok.mpr ⟨term, IdTerm.parse_text hid, hid.isEmpty, rfl⟩

/-- The value holds conditions, quotes, commas and equals signs, and the id holds a quote. -/
theorem parse_spelled_nested :
    let v : Value := .object [("a=1, b", .array [.string "x WHERE id=\"y\"", .null])]
    Statement.parse ("uPDATE my-db.c Set f-1=$1, f_2=" ++
        "\"\x7b\\\"a=1, b\\\":[\\\"x WHERE id=\\\\\\\"y\\\\\\\"\\\",null]\x7d\" where ID=\"o\"1\"") =
      .ok (.update ⟨⟨"my-db", "c"⟩, .literal "o\"1",
        [("f-1", .placeholder 1), ("f_2", .literal v)]⟩) := by
  intro v
  have literal : Operand.Written (.literal v) (Value.string v.compact).compact.toList :=
    Operand.written_compact ⟨List.pairwise_singleton _ _, ⟨trivial, trivial, trivial⟩, trivial⟩
      ⟨⟨trivial, trivial, trivial⟩, trivial⟩ (by decide)
  have first : Assigned ("f-1", .placeholder 1) ("f-1".toList ++ '=' :: ['$', '1']) :=
    .intro (by decide) (.placeholder rfl rfl)
  have second : Assigned ("f_2", .literal v)
      ("f_2".toList ++ '=' :: (Value.string v.compact).compact.toList) :=
    .intro (by decide) literal.spelled
  have comma : Gap [',', ' '] :=
    .comma (List.forall_mem_nil _) (show ∀ c ∈ [' '], isBlank c = true by decide)
  let w : Spelling := ⟨"uPDATE".toList, "Set".toList,
    ("f-1".toList ++ '=' :: ['$', '1']) ++ ([',', ' '] ++
      (("f_2".toList ++ '=' :: (Value.string v.compact).compact.toList) ++ ([] ++ []))),
    "where".toList, "ID".toList⟩
  have h : w.Of ⟨"my-db", "c"⟩ [("f-1", .placeholder 1), ("f_2", .literal v)] :=
    { verb := by decide
      database := by decide
      collection := by decide
      set := by decide
      assignments := .cons first comma nofun (.cons second gap_nil (fun h => absurd rfl h) .nil)
      assigned := List.cons_ne_nil _ _
      word := by decide
      key := by decide }
  have id : IdTerm.Spelled (.literal "o\"1") ('"' :: ("o\"1".toList ++ ['"'])) :=
    .literal (by decide) (by decide) (by decide) (by decide)
  exact Eq.trans (congrArg Statement.parse (by decide +kernel)) (parse_spelled h id)

end Update

end DocumentStore
