import DocumentStore.Proofs.Statement.Placeholders
import DocumentStore.Proofs.Statement.SelectText
import DocumentStore.Proofs.Statement.Splitting

/- The collection of a query without an option for it. It is the name behind the first FROM that
   stands at the start of a word, wherever that is (`from?_append`, `from?_here`). In a list of columns
   none is found before the last column, because a dot or a comma and no white space stands behind
   the others. A last column named so is taken for the keyword, and the keyword for the collection
   (`Select.parse_columns`). -/
namespace DocumentStore.Select

open Text
open Options (Clauses)

variable {c d : Char} {cs rest word collection database : List Char} {fields : List (List Char)}
  {before : Option Char}

/-! Characters of words. -/

/-- A name of word characters. -/
def IsWordName (cs : List Char) : Prop :=
  cs ≠ [] ∧ ∀ c ∈ cs, isWord c = true

instance (cs : List Char) : Decidable (IsWordName cs) :=
  inferInstanceAs (Decidable (_ ∧ _))

theorem isBlank_of_isWord (h : isWord c = true) : isBlank c = false :=
  isBlank_of_class (fun _ => isWord_of_isBlank) h

theorem ne_of_isWord (h : isWord c = true) (apart : isWord d = false) : c ≠ d := by
  rintro rfl
  rw [h] at apart
  cases apart

theorem sameFolded_of_apart {k : Char} (letter : k ∈ "FROM".toList) (h : isWord c = false) :
    sameFolded k c = false := by
  have letters : ∀ k ∈ "FROM".toList,
      k.toLower ≠ 's' ∧ k.toLower ≠ 'k' ∧ isWord k.toLower = true := by decide
  obtain ⟨noS, noK, inside⟩ := letters k letter
  apply Bool.eq_false_iff.mpr
  intro same
  have lower : k.toLower = c.toLower := by simpa [sameFolded, sameLetter, noS, noK] using same
  rw [eq_toLower (f := isWord) (by decide) c, ← lower, inside] at h
  cases h

/-! The keyword in a text. -/

/-- The name behind the keyword at the start of a text, and what follows it. -/
def named? (cs : List Char) : Option (List Char × List Char) :=
  ((keyword? "FROM" cs).bind blanks?).bind name?

theorem from?_cons (before : Option Char) (c : Char) (cs : List Char) : from? before (c :: cs) =
    match (if atWordBoundary before (c :: cs) then named? (c :: cs) else none) with
    | some (name, _) => some name
    | none => from? (some c) cs := by
  rfl

theorem from?_here {name : List Char} (boundary : atWordBoundary before (c :: cs) = true)
    (found : named? (c :: cs) = some (name, rest)) : from? before (c :: cs) = some name := by
  rw [from?_cons, if_pos boundary, found]

theorem from?_skip (none : named? (c :: cs) = none) : from? before (c :: cs) = from? (some c) cs := by
  rw [from?_cons, none, ite_self]

theorem named?_of_apart (h : isWord c = false) (cs : List Char) : named? (c :: cs) = none := by
  have word : keyword? "FROM" (c :: cs) = none :=
    after?_eq_none (sameFolded_of_apart (by decide) h) _ _
  rw [named?, word]
  rfl

theorem from?_inside (inside : isWord c = true) (h : ∀ c ∈ cs, isWord c = true) (rest : List Char) :
    ∃ last, isWord last = true ∧ from? (some c) (cs ++ rest) = from? (some last) rest := by
  induction cs generalizing c with
  | nil => exact ⟨c, inside, rfl⟩
  | cons d cs ih =>
    obtain ⟨first, others⟩ := List.forall_mem_cons.mp h
    obtain ⟨last, hlast, found⟩ := ih first others
    refine ⟨last, hlast, ?_⟩
    have boundary : atWordBoundary (some c) (d :: (cs ++ rest)) = false := by
      simp [atWordBoundary, inside, first]
    rw [List.cons_append, from?_cons, boundary, if_neg Bool.false_ne_true]
    exact found

/-- The keyword is found in a word only where it is the whole of it. -/
theorem named?_append (h : ∀ c ∈ word, isWord c = true) (hd : isWord d = false)
    (rest : List Char) : named? (word ++ d :: rest) =
      if Spells "FROM" word then (blanks? (d :: rest)).bind name? else none := by
  split
  next spells => rw [named?, keyword?_append spells, Option.bind_some]
  next apart =>
    cases found : keyword? "FROM" (word ++ d :: rest) with
    | none =>
      rw [named?, found]
      rfl
    | some left =>
      obtain ⟨more, hmore, rfl⟩ := after?_append_inv (fun k hk c hc => by
        cases hc
        exact sameFolded_of_apart hk hd) found
      cases more with
      | nil =>
        obtain ⟨whole, folds, rfl⟩ := keyword?_eq_some.mp hmore
        rw [List.append_nil] at apart
        exact absurd (folds.spells (by decide)) apart
      | cons e more =>
        have inside : isBlank e = false :=
          isBlank_of_isWord (h e ((after?_suffix hmore).subset List.mem_cons_self))
        rw [named?, found, Option.bind_some, List.cons_append, blanks?, if_neg (by simp [inside])]
        rfl

/-- A word is passed over, and the character behind it, unless it is the keyword and a name follows
    it. -/
theorem from?_append (h : IsWordName word) (hd : isWord d = false)
    (none : named? (word ++ d :: rest) = none) :
    from? before (word ++ d :: rest) = from? (some d) rest := by
  obtain ⟨c, word, rfl⟩ := List.exists_cons_of_ne_nil h.1
  obtain ⟨first, others⟩ := List.forall_mem_cons.mp h.2
  obtain ⟨last, -, found⟩ := from?_inside first others (d :: rest)
  rw [List.cons_append] at none ⊢
  rw [from?_skip none, found, from?_skip (named?_of_apart hd rest)]

/-! Columns. -/

/-- Columns of a document. -/
def columns (fields : List (List Char)) : List Char :=
  List.intercalate [',', ' '] (fields.map fun field => 'c' :: '.' :: field)

/-- A query for these columns, without the keyword in front. -/
def body (fields : List (List Char)) (collection : List Char) : List Char :=
  columns fields ++ ' ' :: (['F', 'R', 'O', 'M'] ++ ' ' :: (collection ++ [' ', 'c']))

theorem columns_cons_cons (field next : List Char) (fields : List (List Char)) :
    columns (field :: next :: fields) =
      'c' :: '.' :: (field ++ ',' :: ' ' :: columns (next :: fields)) := by
  simp [columns]

theorem from?_column (before : Option Char) (rest : List Char) :
    from? before ('c' :: '.' :: rest) = from? (some '.') rest := by
  have letter : IsWordName ['c'] := by decide
  exact from?_append letter (by decide) rfl

theorem IsWordName.name?_append (h : IsWordName word) (rest : List Char) :
    name? (word ++ ' ' :: rest) = some (word, ' ' :: rest) := by
  have name : ∀ c ∈ word, isName c = true := by
    intro c hc
    rw [isName, h.2 c hc, Bool.true_or]
  exact run?_append h.1 name (stop_cons (by decide) rest)

theorem IsWordName.noBlankFirst (h : IsWordName word) (rest : List Char) :
    NoBlankFirst (word ++ rest) :=
  noBlankFirst_append h.1 (fun c hc => isBlank_of_isWord (h.2 c hc)) rest

theorem from?_last (h : IsWordName word) (hcollection : IsWordName collection) :
    from? (some '.') (word ++ ' ' :: (['F', 'R', 'O', 'M'] ++ ' ' :: (collection ++ [' ', 'c']))) =
      some (if Spells "FROM" word then ['F', 'R', 'O', 'M'] else collection) := by
  have behind : named? (['F', 'R', 'O', 'M'] ++ ' ' :: (collection ++ [' ', 'c'])) =
      some (collection, [' ', 'c']) := by
    rw [named?, keyword?_append (by decide), Option.bind_some,
      blanks?_space (hcollection.noBlankFirst _), Option.bind_some]
    exact hcollection.name?_append ['c']
  have here := named?_append h.2 (show isWord ' ' = false by decide)
    (['F', 'R', 'O', 'M'] ++ ' ' :: (collection ++ [' ', 'c']))
  split at here
  next spells =>
    have keyword : IsWordName ['F', 'R', 'O', 'M'] := by decide
    rw [blanks?_space (keyword.noBlankFirst _), Option.bind_some, keyword.name?_append] at here
    obtain ⟨c, word, rfl⟩ := List.exists_cons_of_ne_nil h.1
    have first : isWord c = true := h.2 c List.mem_cons_self
    rw [if_pos spells]
    exact from?_here (by simp [atWordBoundary, first, show isWord '.' = false by decide]) here
  next apart =>
    rw [if_neg apart, from?_append h (by decide) here]
    exact from?_here rfl behind

/-- The name behind the keyword is found, unless the last column is named as the keyword. -/
theorem from?_body (nonempty : fields ≠ []) (words : ∀ field ∈ fields, IsWordName field)
    (hcollection : IsWordName collection) : from? before (body fields collection) =
      some (if Spells "FROM" (fields.getLast nonempty) then ['F', 'R', 'O', 'M']
        else collection) := by
  induction fields generalizing before with
  | nil => exact absurd rfl nonempty
  | cons field fields ih =>
    obtain ⟨first, others⟩ := List.forall_mem_cons.mp words
    cases fields with
    | nil =>
      have whole : body [field] collection = 'c' :: '.' :: (field ++ ' ' ::
          (['F', 'R', 'O', 'M'] ++ ' ' :: (collection ++ [' ', 'c']))) := by
        simp [body, columns]
      rw [whole, from?_column, List.getLast_singleton, from?_last first hcollection]
    | cons next fields =>
      have whole : body (field :: next :: fields) collection =
          'c' :: '.' :: (field ++ ',' :: (' ' :: body (next :: fields) collection)) := by
        rw [body, columns_cons_cons]
        simp [body]
      have none : named? (field ++ ',' :: (' ' :: body (next :: fields) collection)) = none := by
        rw [named?_append first.2 (by decide)]
        exact ite_self _
      rw [whole, from?_column, from?_append first (by decide) none,
        from?_skip (named?_of_apart (by decide) _), ih (List.cons_ne_nil _ _) others,
        List.getLast_cons_cons]

/-! Characters of the query. -/

theorem mem_columns (words : ∀ field ∈ fields, IsWordName field) (h : c ∈ columns fields) :
    isWord c = true ∨ c ∈ [' ', '.', ','] := by
  induction fields with
  | nil => cases h
  | cons field fields ih =>
    obtain ⟨first, others⟩ := List.forall_mem_cons.mp words
    have start (hc : c ∈ 'c' :: '.' :: field) : isWord c = true ∨ c ∈ [' ', '.', ','] := by
      obtain rfl | hc := List.mem_cons.mp hc
      · exact .inl (by decide)
      obtain rfl | hc := List.mem_cons.mp hc
      · exact .inr (by decide)
      · exact .inl (first.2 c hc)
    cases fields with
    | nil =>
      rw [columns, List.map_singleton, List.intercalate_singleton] at h
      exact start h
    | cons next fields =>
      rw [columns_cons_cons, ← List.cons_append, ← List.cons_append] at h
      obtain h | h := List.mem_append.mp h
      · exact start h
      obtain rfl | h := List.mem_cons.mp h
      · exact .inr (by decide)
      obtain rfl | h := List.mem_cons.mp h
      · exact .inr (by decide)
      · exact ih others h

theorem mem_body (words : ∀ field ∈ fields, IsWordName field) (hcollection : IsWordName collection)
    (h : c ∈ body fields collection) : isWord c = true ∨ c ∈ [' ', '.', ','] := by
  have others : ∀ c ∈ [' ', 'F', 'R', 'O', 'M', ' '] ++ [' ', 'c'],
      isWord c = true ∨ c ∈ [' ', '.', ','] := by decide
  have whole : body fields collection =
      columns fields ++ ([' ', 'F', 'R', 'O', 'M', ' '] ++ (collection ++ [' ', 'c'])) := rfl
  rw [whole, List.mem_append, List.mem_append, List.mem_append] at h
  obtain h | h | h | h := h
  · exact mem_columns words h
  · exact others c (List.mem_append_left _ h)
  · exact .inl (hcollection.2 c h)
  · exact others c (List.mem_append_right _ h)

theorem parametrize_body (words : ∀ field ∈ fields, IsWordName field)
    (hcollection : IsWordName collection) :
    QueryText.parametrize (['S', 'E', 'L', 'E', 'C', 'T', ' '] ++ body fields collection) =
      .ok ⟨['S', 'E', 'L', 'E', 'C', 'T', ' '] ++ body fields collection, []⟩ := by
  have others : ∀ c ∈ [' ', '.', ','], Placeholder.isSigil c = false := by decide
  have plain : ∀ c ∈ body fields collection, Placeholder.isSigil c = false := by
    intro c hc
    obtain h | h := mem_body words hcollection hc
    · have apart (d : Char) (hd : isWord d = false) : (c == d) = false :=
        beq_eq_false_iff_ne.mpr (ne_of_isWord h hd)
      rw [Placeholder.isSigil, apart '$' (by decide), apart '@' (by decide), apart ':' (by decide)]
      rfl
    · exact others c h
  have query : IdTerm.mentionsPlaceholder (body fields collection ++ []) = false :=
    QueryText.mentionsPlaceholder_plain plain
  apply QueryText.parametrize_plain
  rw [QueryText.mentionsPlaceholder_plain (by decide), ← List.append_nil (body fields collection)]
  exact query

/-! The option. -/

/-- The option for the database. -/
def databaseOption (database : List Char) : List Char :=
  ' ' :: Options.clauseText "db" database

theorem isPlain_of_isWordName (h : IsWordName database) : Options.IsPlain database := by
  refine ⟨h.1, fun c hc => ?_⟩
  have apart (d : Char) (hd : isWord d = false) : c ≠ d := ne_of_isWord (h.2 c hc) hd
  refine ⟨?_, ?_, apart ';' (by decide)⟩
  · rw [Options.isValue, isBlank_of_isWord (h.2 c hc)]
    simpa using apart ',' (by decide)
  · simpa [Options.isQuote] using ⟨apart '"' (by decide), apart '\x27' (by decide)⟩

theorem clauses_databaseOption (h : IsWordName database) :
    Clauses (databaseOption database) [("db".toList, database)] := by
  have found : Options.clause? (Options.clauseText "db" (database ++ [])) =
      some ⟨"db".toList, database, []⟩ :=
    Options.clause?_text (by decide) (isPlain_of_isWordName h) nofun
  obtain ⟨-, text, written, whole⟩ := Options.clause?_iff.mp found
  rw [List.append_nil, List.append_nil] at whole
  have clauses : Clauses ([' '] ++ (text ++ ([] ++ ([] ++ [])))) [("db".toList, database)] :=
    .cons ⟨List.cons_ne_nil _ _, by decide⟩ written nofun (.inl rfl) (.nil nofun)
  rwa [List.nil_append, List.nil_append, List.append_nil, ← whole] at clauses

theorem parse_databaseOption (h : IsWordName database) :
    Options.parse (databaseOption database) =
      .ok (KeyMap.ofList [("DB", String.ofList database)]) := by
  have key : Options.capitals "db".toList = "DB" := by decide
  rw [(clauses_databaseOption h).parse_eq, List.map_singleton, Options.recorded, key,
    Options.unquote_plain (isPlain_of_isWordName h)]

theorem value?_singleton (name value key : String) :
    Options.value? (KeyMap.ofList [(name, value)]) key =
      if Options.capitals key.toList = name then some value else none := by
  rw [Options.value?, KeyMap.get?_ofList]
  exact KeyMap.lookup_cons_eq _ _ _ _

/-! The whole query. -/

theorem exists_body (nonempty : fields ≠ []) (collection : List Char) :
    ∃ more, body fields collection = 'c' :: '.' :: more := by
  cases fields with
  | nil => exact absurd rfl nonempty
  | cons field fields =>
    cases fields with
    | nil => exact ⟨_, by rw [body, columns, List.map_singleton, List.intercalate_singleton]; rfl⟩
    | cons next fields => exact ⟨_, by rw [body, columns_cons_cons]; rfl⟩

theorem noBlankLast_body : NoBlankLast (body fields collection) := by
  have whole : body fields collection =
      (columns fields ++ ([' ', 'F', 'R', 'O', 'M', ' '] ++ (collection ++ [' ']))) ++ ['c'] := by
    simp [body]
  intro c hc
  rw [whole, List.getLast?_concat] at hc
  cases hc
  decide

theorem head?_columns (nonempty : fields ≠ []) (hdatabase : IsWordName database) :
    head? (trim (['S', 'E', 'L', 'E', 'C', 'T'] ++
        ' ' :: (body fields collection ++ databaseOption database))) =
      some (false, body fields collection ++ databaseOption database) := by
  obtain ⟨more, hbody⟩ := exists_body nonempty collection
  have last : NoBlankLast (['S', 'E', 'L', 'E', 'C', 'T'] ++
      ' ' :: (body fields collection ++ databaseOption database)) := by
    have whole : ['S', 'E', 'L', 'E', 'C', 'T'] ++
        ' ' :: (body fields collection ++ databaseOption database) =
          (['S', 'E', 'L', 'E', 'C', 'T', ' '] ++ (body fields collection ++
            [' ', 'W', 'I', 'T', 'H', ' ', 'd', 'b', '='])) ++ database := by
      simp [databaseOption, Options.clauseText]
    intro c hc
    rw [whole, List.getLast?_append_of_ne_nil _ hdatabase.1] at hc
    exact isBlank_of_isWord (hdatabase.2 c (List.mem_of_getLast? hc))
  have first : NoBlankFirst (body fields collection ++ databaseOption database) := by
    rw [hbody]
    exact noBlankFirst_cons (by decide)
  have unmarked : keywords? "CROSS" "PARTITION"
      (body fields collection ++ databaseOption database) = none := by
    rw [hbody]
    rfl
  have trimmed := trim_eq (noBlankFirst_append (by decide) (by decide) _) last
  rw [trimmed, head?, keyword?_append (by decide), Option.bind_some, blanks?_space first,
    Option.map_some, unmarked]

/-- The statement for these columns, with the collection that is found. -/
def selected (fields : List (List Char)) (collection found database : List Char) : Select where
  container := ⟨String.ofList database, String.ofList found⟩
  crossPartition := false
  text := String.ofList (['S', 'E', 'L', 'E', 'C', 'T', ' '] ++ body fields collection)
  indices := []

theorem ofParts_body {found : List Char} (words : ∀ field ∈ fields, IsWordName field)
    (hcollection : IsWordName collection) (hdatabase : database ≠ []) (hfound : found ≠ [])
    (here : from? none (body fields collection) = some found) :
    ofParts false (body fields collection) (KeyMap.ofList [("DB", String.ofList database)]) =
      .ok (selected fields collection found database) := by
  have keyword : "SELECT ".toList = ['S', 'E', 'L', 'E', 'C', 'T', ' '] := by decide
  have names : Options.capitals "CROSS_PARTITION".toList ≠ "DB" ∧
      Options.capitals "DATABASE".toList ≠ "DB" ∧ Options.capitals "DB".toList = "DB" ∧
        Options.capitals "COLLECTION".toList ≠ "DB" ∧ Options.capitals "TABLE".toList ≠ "DB" := by
    decide
  obtain ⟨cross, long, short, collection', table⟩ := names
  have unmarked : crossPartition? false (KeyMap.ofList [("DB", String.ofList database)]) =
      .ok false := by
    rw [crossPartition?, value?_singleton, if_neg cross]
  have container : containerOf (KeyMap.ofList [("DB", String.ofList database)])
      (body fields collection) = ⟨String.ofList database, String.ofList found⟩ := by
    simp only [containerOf, Options.firstOf?, List.findSome?_cons, List.findSome?_nil,
      value?_singleton, if_neg long, if_pos short, if_neg collection', if_neg table, here,
      Option.getD_some, Option.getD_none]
  have named : ¬(String.ofList database = "" ∨ String.ofList found = "") := by
    simp [String.ofList_eq_empty_iff, hdatabase, hfound]
  rw [ofParts, unmarked]
  simp only [keyword, parametrize_body words hcollection, container, if_neg named]
  rfl

/-- **A query for columns** is read, and its collection is the name behind FROM, unless the last column
    is named as that keyword. Such a column is taken for the keyword, and the collection is then the
    keyword itself. -/
theorem parse_columns (nonempty : fields ≠ []) (words : ∀ field ∈ fields, IsWordName field)
    (hcollection : IsWordName collection) (hdatabase : IsWordName database) :
    Select.parse (['S', 'E', 'L', 'E', 'C', 'T', ' '] ++
      (body fields collection ++ databaseOption database)) =
        .ok (selected fields collection
          (if Spells "FROM" (fields.getLast nonempty) then ['F', 'R', 'O', 'M'] else collection)
          database) := by
  have written := clauses_databaseOption hdatabase
  have opens : Options.Opens (databaseOption database) ('b' :: '=' :: database) :=
    ⟨⟨' ', _, rfl, by decide⟩, rfl⟩
  have tail : Options.isTail (databaseOption database) = true :=
    Options.isTail_iff.mpr ⟨_, List.cons_ne_nil _ _, written⟩
  have plain : '=' ∉ body fields collection := by
    intro h
    exact absurd (mem_body words hcollection h) (by decide)
  obtain ⟨hsplit, -⟩ := Options.split_append opens written.reads tail noBlankLast_body
  rw [Options.split_plain plain, List.nil_append] at hsplit
  have read : Options.parse (Options.split (body fields collection ++ databaseOption database)).2 =
      .ok (KeyMap.ofList [("DB", String.ofList database)]) := by
    rw [hsplit]
    exact parse_databaseOption hdatabase
  have here : from? none (body fields collection) = _ := from?_body nonempty words hcollection
  generalize hfound : (if Spells "FROM" (fields.getLast nonempty) then ['F', 'R', 'O', 'M']
    else collection) = found at here ⊢
  have named : found ≠ [] := by
    rw [← hfound]
    split
    next => exact List.cons_ne_nil _ _
    next => exact hcollection.1
  have made := ofParts_body words hcollection hdatabase.1 named here
  refine parse_eq_ok.mpr ⟨false, _, _, head?_columns nonempty hdatabase, read, ?_⟩
  rw [hsplit]
  exact made

/-- Columns may be named as the words of the language. -/
theorem parse_columns_reserved :
    Select.parse "SELECT c.from, c.with, c.order FROM orders c WITH db=shop".toList =
      .ok ⟨⟨"shop", "orders"⟩, false, "SELECT c.from, c.with, c.order FROM orders c", []⟩ := by
  have read := parse_columns (show ["from".toList, "with".toList, "order".toList] ≠ [] by decide)
    (by decide) (show IsWordName "orders".toList by decide) (show IsWordName "shop".toList by decide)
  have text : "SELECT c.from, c.with, c.order FROM orders c WITH db=shop".toList =
      ['S', 'E', 'L', 'E', 'C', 'T', ' '] ++
        (body ["from".toList, "with".toList, "order".toList] "orders".toList ++
          databaseOption "shop".toList) := by
    decide
  rw [text, read]
  decide

/-- **A last column named as the keyword** hides it: the query goes to a collection of that name. -/
theorem not_parse_columns :
    (∀ name ∈ ["from".toList, "orders".toList, "shop".toList], IsWordName name) ∧
      Select.parse "SELECT c.from FROM orders c WITH db=shop".toList =
        .ok ⟨⟨"shop", "FROM"⟩, false, "SELECT c.from FROM orders c", []⟩ := by
  decide +kernel

end DocumentStore.Select
