import DocumentStore.Proofs.Statement.CrossPartition
import DocumentStore.Proofs.Statement.FailFast
import DocumentStore.Proofs.Statement.IdGrammar
import DocumentStore.Proofs.Statement.Literals

/- What every statement has that is read, whatever its text (`Statement.wellFormed_of_parse`). It
   names a container, each field that it assigns has a name and a value, it is about a document with
   an id, and it takes an argument for each placeholder in its text. Running it rests on this: fields
   and values are taken in pairs, and the argument behind those for the placeholders is the partition
   key. -/
namespace DocumentStore

open Text

/-! Well-formed statements. -/

namespace Insert

/-- Each field has a name and a value, and each placeholder among the values an argument. -/
structure WellFormed (s : Insert) : Prop where
  database : IsName s.container.database
  collection : IsName s.container.collection
  counts : s.fields.length = s.values.length
  named : ∀ field ∈ s.fields, field ≠ ""
  inputs : s.numInput = 1 + (s.values.filterMap Operand.placeholder?).length

end Insert

namespace Delete

/-- The document has an id that is not empty. -/
structure WellFormed (s : Delete) : Prop where
  database : IsName s.container.database
  collection : IsName s.container.collection
  present : s.id ≠ .literal ""
  proper : s.id.Proper
  inputs : s.numInput = 1 + s.id.placeholders.length

end Delete

namespace Update

/-- The document has an id that is not empty, and something is assigned to its fields. -/
structure WellFormed (s : Update) : Prop where
  database : IsName s.container.database
  collection : IsName s.container.collection
  present : s.id ≠ .literal ""
  proper : s.id.Proper
  assigned : s.fields ≠ []
  counts : s.fields.length = s.values.length
  named : ∀ field ∈ s.fields, IsFieldName field
  inputs : s.numInput =
    1 + (s.id.placeholders ++ s.values.filterMap Operand.placeholder?).length

end Update

namespace Select

/-- The query takes an argument for each placeholder between the keyword and the options of its
    text. -/
structure WellFormed (cs : List Char) (s : Select) : Prop where
  database : s.container.database ≠ ""
  collection : s.container.collection ≠ ""
  inputs : ∃ marked rest start xs, Headed (trim cs) marked rest ∧
    QueryText.Division ("SELECT ".toList ++ (Options.split rest).1) start xs ∧
    s.numInput = xs.length

end Select

/-- The statement is a well-formed one of its kind, read from the normalized text. -/
def Statement.WellFormed (cs : List Char) : Statement → Prop
  | .insert s => s.WellFormed
  | .delete s => s.WellFormed
  | .update s => s.WellFormed
  | .select s => s.WellFormed cs

variable {container : Container} {id cs : List Char}

/-! Fields. -/

namespace Text

theorem ne_nil_of_mem_runsFrom {separates : Char → Bool} (current : List Char) :
    ∀ run ∈ runsFrom separates current cs, run ≠ [] := by
  have here {current : List Char} : ∀ run ∈ if current.isEmpty then [] else [current], run ≠ [] := by
    cases current <;> simp
  induction cs generalizing current with
  | nil => exact here
  | cons c cs ih =>
    rw [runsFrom]
    split
    next =>
      intro run hrun
      exact (List.mem_append.mp hrun).elim (here run) (ih [] run)
    next => exact ih (current ++ [c])

end Text

theorem Insert.named_fieldsOf : ∀ field ∈ fieldsOf cs, field ≠ "" := by
  intro field hfield
  obtain ⟨run, hrun, rfl⟩ := List.mem_map.mp hfield
  exact fun empty => ne_nil_of_mem_runsFrom [] run hrun (String.ofList_eq_empty_iff.mp empty)

theorem ValueList.isFieldName_of_field {name : String} {rest : List Char}
    (h : field cs = (.ok name, rest)) : IsFieldName name := by
  rw [field] at h
  split at h
  next c run rest htaken hleft =>
    cases h
    refine ⟨by simp, fun d hd => ?_⟩
    rw [String.toList_ofList, ← htaken] at hd
    exact List.mem_takeWhile_imp hd
  next => cases h

/-! The statements that are read. -/

theorem Insert.wellFormed_of_ofLists {upsert : Bool} {fields values : List Char} {s : Insert}
    (h : ofLists container upsert fields values = .ok s)
    (names : IsName s.container.database ∧ IsName s.container.collection) : s.WellFormed := by
  obtain ⟨operands, -, full, rfl⟩ := ofLists_eq_ok.mp h
  exact
    { database := names.1
      collection := names.2
      counts := full
      named := named_fieldsOf
      inputs := by rw [length_filterMap_placeholder?, numInput] }

theorem Delete.wellFormed_of_ofCondition {s : Delete} (h : ofCondition container id = .ok s)
    (names : IsName s.container.database ∧ IsName s.container.collection) : s.WellFormed := by
  obtain ⟨term, hterm, nonempty, rfl⟩ := ofCondition_eq_ok.mp h
  exact
    { database := names.1
      collection := names.2
      present := IdTerm.ne_of_isEmpty nonempty
      proper := IdTerm.proper_of_parse hterm
      inputs := by rw [length_placeholders, numInput] }

theorem Update.wellFormed_of_ofClauses {clause : List Char} {s : Update}
    (h : ofClauses container clause id = .ok s)
    (names : IsName s.container.database ∧ IsName s.container.collection) : s.WellFormed := by
  obtain ⟨term, assignments, hterm, hassignments, nonempty, assigned, rfl⟩ :=
    ofClauses_eq_ok.mp h
  have named : ∀ assignment ∈ assignments, IsFieldName assignment.1 := by
    intro assignment hassignment
    obtain ⟨_, _, _, hfield, -⟩ :=
      ValueList.steps_of_assignments hassignments assignment hassignment
    exact ValueList.isFieldName_of_field hfield
  exact
    { database := names.1
      collection := names.2
      present := IdTerm.ne_of_isEmpty nonempty
      proper := IdTerm.proper_of_parse hterm
      assigned := mt List.map_eq_nil_iff.mp assigned
      counts := by rw [fields, values, List.length_map, List.length_map]
      named := List.forall_mem_map.mpr named
      inputs := by
        rw [List.length_append, length_placeholders, length_filterMap_placeholder?, numInput,
          Nat.add_assoc] }

theorem Select.wellFormed_parse {s : Select} (h : parse cs = .ok s) : s.WellFormed cs := by
  obtain ⟨marked, rest, options, hhead, -, made⟩ := parse_eq_ok.mp h
  obtain ⟨allowed, r, -, rewritten, database, collection, rfl⟩ := ofParts_eq_ok.mp made
  obtain ⟨start, xs, divided⟩ :=
    QueryText.exists_division ("SELECT ".toList ++ (Options.split rest).1)
  have parametrized := QueryText.rewrites_iff.mp rewritten
  rw [divided.parametrize] at parametrized
  split at parametrized
  next => cases parametrized
  next =>
    cases parametrized
    refine ⟨database, collection, marked, rest, start, xs, headed_of_head? hhead, divided, ?_⟩
    rw [numInput, List.length_map]

namespace Statement

/-- **A statement that is read** is well-formed. -/
theorem wellFormed_of_parse {text : String} {s : Statement} (parsed : parse text = .ok s) :
    s.WellFormed (normalize text.toList) := by
  have names := isName_of_parse parsed
  cases read_of_parse parsed with
  | insert hparts made => exact Insert.wellFormed_of_ofLists made (names nofun)
  | delete hparts made => exact Delete.wellFormed_of_ofCondition made (names nofun)
  | update hparts made => exact Update.wellFormed_of_ofClauses made (names nofun)
  | select made => exact Select.wellFormed_parse made

/-- One field that is assigned twice, and two placeholders for one argument. -/
theorem wellFormed_of_parse_twice :
    let s : Update := ⟨⟨"d", "c"⟩, .placeholder 1, [("x-1", .placeholder 1), ("x-1", .literal .null)]⟩
    parse "UPDATE d.c SET x-1=:1, x-1=null WHERE id=@1 ;" = .ok (.update s) ∧ s.WellFormed ∧
      s.numInput = 3 := by
  intro s
  have parsed : parse "UPDATE d.c SET x-1=:1, x-1=null WHERE id=@1 ;" = .ok (.update s) :=
    eq_ok_of_toOption (by decide +kernel)
  have wellFormed : s.WellFormed := wellFormed_of_parse parsed
  exact ⟨parsed, wellFormed, wellFormed.inputs⟩

end Statement

end DocumentStore
