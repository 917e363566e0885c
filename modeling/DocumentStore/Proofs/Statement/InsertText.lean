import DocumentStore.Proofs.Statement.Reading
import DocumentStore.Proofs.Statement.ValueListText

/- An INSERT is read back from its text, in any case of its keywords and with anything inside its
   values (`round_trip`). The field list ends at the first closing parenthesis, because no field
   name has one; the value list ends with the text, and in between the operands find their own ends
   (`ValueList.operands_written`). -/
namespace DocumentStore

open Json (Value)
open Text

variable {cs rest : List Char} {args : List Value}

namespace Insert

/-- How the parts of a statement are written. -/
structure Spelling where
  verb : List Char
  into : List Char
  values : List Char
  operands : List (List Char)

/-- The field list of the statement. -/
def fieldList (s : Insert) : List Char :=
  List.intercalate [','] (s.fields.map String.toList)

/-- The value list in this spelling. -/
def Spelling.valueList (w : Spelling) : List Char :=
  List.intercalate [','] w.operands

/-- The statement in this spelling. -/
def Spelling.text (w : Spelling) (s : Insert) : List Char :=
  w.verb ++ ' ' :: (w.into ++ ' ' ::
    (s.container.database.toList ++ '.' :: (s.container.collection.toList ++
      ' ' :: '(' :: (s.fieldList ++ ')' :: ' ' :: (w.values ++
        ' ' :: '(' :: (w.valueList ++ [')']))))))

/-- A field name: it has no comma, no blank and no closing parenthesis. -/
def IsField (field : String) : Prop :=
  field ≠ "" ∧ ∀ c ∈ field.toList, separatesFields c = false ∧ c ≠ ')'

instance (field : String) : Decidable (IsField field) :=
  inferInstanceAs (Decidable (_ ∧ _))

/-- The spelling is one of the statement, which has as many fields as values. -/
structure Spelling.Of (w : Spelling) (s : Insert) : Prop where
  verb : Spells (if s.upsert then "UPSERT" else "INSERT") w.verb
  into : Spells "INTO" w.into
  database : IsName s.container.database
  collection : IsName s.container.collection
  fields : ∀ field ∈ s.fields, IsField field
  values : Spells "VALUES" w.values
  operands : List.Forall₂ Operand.Written s.values w.operands
  counts : s.fields.length = s.values.length

variable {w : Spelling} {s : Insert}

/-! The head. -/

theorem head?_append {upsert : Bool} {verb into : List Char}
    (hverb : Spells (if upsert then "UPSERT" else "INSERT") verb) (hinto : Spells "INTO" into)
    (stop : NoBlankFirst rest) : head? (verb ++ ' ' :: (into ++ ' ' :: rest)) = some rest := by
  have start := hinto.noBlankFirst (k := 'I') rfl (by decide) (' ' :: rest)
  cases upsert with
  | false =>
    have hverb : Spells "INSERT" verb := hverb
    rw [head?, keywords?_append hverb hinto start stop]
    rfl
  | true =>
    have hverb : Spells "UPSERT" verb := hverb
    obtain ⟨c, tail, rfl, hc⟩ := hverb.exists_cons (k := 'U') rfl
    have other (more : List Char) : keyword? "INSERT" (c :: tail ++ more) = none := by
      refine after?_eq_none ?_ _ _
      rw [sameFolded, sameLetter, hc]
      rfl
    have apart (more : List Char) : keywords? "INSERT" "INTO" (c :: tail ++ more) = none := by
      rw [keywords?, other, Option.bind_none, Option.bind_none]
    rw [head?, apart]
    exact keywords?_append hverb hinto start stop

theorem isUpsert_append {upsert : Bool} {verb : List Char}
    (hverb : Spells (if upsert then "UPSERT" else "INSERT") verb) (rest : List Char) :
    isUpsert (verb ++ rest) = upsert := by
  cases upsert with
  | true =>
    have hverb : Spells "UPSERT" verb := hverb
    rw [isUpsert, after?_append hverb (fun _ _ same => same) rest, Option.isSome_some]
  | false =>
    obtain ⟨c, tail, rfl, hc⟩ := hverb.exists_cons (k := 'I') rfl
    have apart : after? sameLetter "UPSERT".toList (c :: tail ++ rest) = none := by
      refine after?_eq_none ?_ _ _
      rw [sameLetter, hc]
      rfl
    rw [isUpsert, apart, Option.isSome_none]

/-! The lists. -/

theorem valuesHead?_append {word : List Char} (h : Spells "VALUES" word) (values : List Char) :
    valuesHead? (')' :: ' ' :: (word ++ ' ' :: '(' :: values)) = some values := by
  have start : NoBlankFirst (word ++ ' ' :: '(' :: values) :=
    h.noBlankFirst (k := 'V') rfl (by decide) _
  rw [valuesHead?, char?, if_pos rfl, Option.bind_some, skipBlanks_space start, keyword?_append h,
    Option.bind_some, skipBlanks_space (noBlankFirst_cons (by decide)), char?, if_pos rfl]

/-- The field list ends at the first closing parenthesis. -/
theorem lists?_append {fields word : List Char} (h : ')' ∉ fields) (hword : Spells "VALUES" word)
    (values : List Char) :
    lists? (fields ++ ')' :: ' ' :: (word ++ ' ' :: '(' :: values)) = some (fields, values) := by
  induction fields with
  | nil => rw [List.nil_append, lists?, valuesHead?_append hword]
  | cons c cs ih =>
    have hc : c ≠ ')' := fun e => h (e ▸ List.mem_cons_self)
    have hcs : ')' ∉ cs := fun e => h (List.mem_cons_of_mem c e)
    have inside (rest : List Char) : valuesHead? (c :: rest) = none := by
      rw [valuesHead?, char?, if_neg hc, Option.bind_none, Option.bind_none]
    rw [List.cons_append, lists?, inside, ih hcs]
    rfl

/-! The whole statement. -/

theorem fieldsOf_fieldList (h : ∀ field ∈ s.fields, IsField field) :
    fieldsOf s.fieldList = s.fields := by
  have plain : ∀ part ∈ s.fields.map String.toList,
      part ≠ [] ∧ ∀ c ∈ part, separatesFields c = false := by
    intro part hpart
    obtain ⟨field, hfield, rfl⟩ := List.mem_map.mp hpart
    exact ⟨toList_ne_nil (h field hfield).1, fun c hc => ((h field hfield).2 c hc).1⟩
  rw [fieldsOf, fieldList, runs_intercalate (by decide) plain, List.map_map]
  simp [Function.comp_def]

theorem not_mem_fieldList (h : ∀ field ∈ s.fields, IsField field) : ')' ∉ s.fieldList := by
  intro hmem
  obtain hmem | ⟨part, hpart, hmem⟩ := mem_of_mem_intercalate hmem
  · exact absurd hmem (by decide)
  · obtain ⟨field, hfield, rfl⟩ := List.mem_map.mp hpart
    exact ((h field hfield).2 ')' hmem).2 rfl

theorem ofLists_text (h : w.Of s) :
    ofLists s.container s.upsert s.fieldList w.valueList = .ok s := by
  have operands : ValueList.operands w.valueList = .ok s.values :=
    ValueList.operands_written h.operands
  simp only [ofLists, operands, fieldsOf_fieldList h.fields, h.counts, if_true]

theorem parts?_text (h : w.Of s) :
    parts? (w.text s) = some (s.container, s.fieldList, w.valueList) := by
  have container (rest : List Char) :=
    Target.container?_append h.database h.collection (stop_cons (c := ' ') (by decide) rest)
  have paren (rest : List Char) : skipBlanks (' ' :: '(' :: rest) = '(' :: rest :=
    skipBlanks_space (noBlankFirst_cons (by decide))
  rw [parts?, Spelling.text, head?_append h.verb h.into (h.database.noBlankFirst _), Option.bind_some, container]
  simp only [paren, char?, if_true, Option.bind_some,
    lists?_append (not_mem_fieldList h.fields) h.values, List.getLast?_concat, List.dropLast_concat]

theorem normalize_text (h : w.Of s) : Statement.normalize (w.text s) = w.text s := by
  have first : NoBlankFirst (w.text s) := by
    have hverb := h.verb
    cases hu : s.upsert <;> rw [hu] at hverb
    · exact hverb.noBlankFirst (k := 'I') rfl (by decide) _
    · exact hverb.noBlankFirst (k := 'U') rfl (by decide) _
  have last : (w.text s).getLast? = some ')' := by
    simp [Spelling.text, List.getLast?_append, List.getLast?_cons]
  exact Statement.normalize_eq first last (by decide) (by decide)

theorem parse_text (h : w.Of s) : Statement.parse (String.ofList (w.text s)) = .ok (.insert s) := by
  have upsert : isUpsert (w.text s) = s.upsert := isUpsert_append h.verb _
  have parsed : parse? (w.text s) = some (.ok s) := by
    simp only [parse?, parts?_text h, Option.map_some, upsert, ofLists_text h]
  rw [Statement.parse, String.toList_ofList, normalize_text h, Statement.ofNormalized, parsed]
  rfl

/-! The document. -/

/-- The operand of a field, the last one of a field that is named more than once. -/
def operandOf? (s : Insert) (field : String) : Option Operand :=
  (s.fields.zip s.values).reverse.lookup field

/-- **An INSERT** is read back from its text in any spelling, and under arguments that it can be
    bound to it creates the document of its fields: each has the value of its last operand, and
    there are no others. The partition key is the last argument. -/
theorem round_trip (h : w.Of s) :
    Statement.parse (String.ofList (w.text s)) = .ok (.insert s) ∧
      ∀ (args : List Value) (draft : Draft), s.draft args = .ok draft →
        draft.container = s.container ∧ draft.upsert = s.upsert ∧
          (∃ key, args.getLast? = some key ∧ draft.partition = [key]) ∧
            ∀ field, (draft.payload.get? field).map .ok =
              (s.operandOf? field).map (Operand.resolve args) := by
  refine ⟨parse_text h, fun args draft hdraft => ?_⟩
  obtain ⟨entries, partition, hentries, hpartition, rfl⟩ := draft_eq_ok hdraft
  refine ⟨rfl, rfl, partitionKey_eq_ok hpartition, fun field => ?_⟩
  rw [KeyMap.get?_ofList]
  exact lookup_resolveAll hentries field

/-- The value looks like the end of a field list inside, and a field is named twice. -/
theorem round_trip_nested :
    let v : Value := .object [(") VALUES (", .array [.null, .string "a,b;)\""])]
    let s : Insert := ⟨⟨"my-db", "c"⟩, true, ["id", "x", "id"],
      [.placeholder 1, .literal v, .placeholder 2]⟩
    let args : List Value := [.string "first", .string "second", .string "key"]
    Statement.parse ("uPSERT into my-db.c (id,x,id) Values ($1," ++
        "\"\x7b\\\") VALUES (\\\":[null,\\\"a,b;)\\\\\\\"\\\"]\x7d\",:02)") = .ok (.insert s) ∧
      ∃ draft, s.draft args = .ok draft ∧ draft.partition = [.string "key"] ∧
        draft.payload.get? "id" = some (.string "second") := by
  intro v s args
  have literal : Operand.Written (.literal v) (Value.string v.compact).compact.toList :=
    Operand.written_compact ⟨List.pairwise_singleton _ _, ⟨trivial, trivial, trivial⟩, trivial⟩
      ⟨⟨trivial, trivial, trivial⟩, trivial⟩ (by decide)
  let w : Spelling := ⟨"uPSERT".toList, "into".toList, "Values".toList,
    ['$' :: Nat.toDigits 10 1, (Value.string v.compact).compact.toList, ":02".toList]⟩
  have h : w.Of s :=
    { verb := by decide
      into := by decide
      database := by decide
      collection := by decide
      fields := by decide
      values := by decide
      operands := .cons (Operand.written_toDigits rfl (by decide))
        (.cons literal (.cons (.placeholder rfl rfl) .nil))
      counts := rfl }
  have text : String.ofList (w.text s) = "uPSERT into my-db.c (id,x,id) Values ($1," ++
      "\"\x7b\\\") VALUES (\\\":[null,\\\"a,b;)\\\\\\\"\\\"]\x7d\",:02)" := by
    decide +kernel
  obtain ⟨parsed, drafted⟩ := round_trip h
  obtain ⟨draft, hdraft⟩ : ∃ draft, s.draft args = .ok draft := ⟨_, rfl⟩
  obtain ⟨-, -, ⟨key, hkey, hpartition⟩, content⟩ := drafted args draft hdraft
  cases hkey
  obtain ⟨second, hsecond, value⟩ := Option.map_eq_some_iff.mp (content "id")
  cases value
  exact ⟨text ▸ parsed, draft, hdraft, hpartition, hsecond⟩

end Insert

end DocumentStore
