import DocumentStore.Proofs.Store.Lookup

/- The ids and tokens that a store mints. Each write takes the next number, and the two formats
   write numbers apart (`mintedId_injective`, `mintedToken_injective`), so the token of a document
   says which write of the history it is: the document with token `n` is the `n`-th that was
   written (`Accounted`). A document keeps its id as long as it is overwritten in its place. -/
namespace DocumentStore.Store

/-! Padded numbers can be read back. -/

def digitValue (c : Char) : Nat :=
  if c.isDigit then c.toNat - 48 else c.toNat - 87

/-- The number that digits denote in a base up to sixteen, small letters after the nines. -/
def valueOf (base : Nat) (digits : List Char) : Nat :=
  digits.foldl (fun n c => n * base + digitValue c) 0

theorem digitValue_digitChar : ∀ {d : Nat}, d < 16 → digitValue d.digitChar = d := by
  decide

theorem valueOf_toDigits {base : Nat} (hb : 1 < base) (hb' : base ≤ 16) (n : Nat) :
    valueOf base (Nat.toDigits base n) = n := by
  induction n using Nat.strongRecOn with
  | ind n ih =>
    rw [Nat.toDigits_eq_if hb]
    split
    next h => simp [valueOf, digitValue_digitChar (Nat.lt_of_lt_of_le h hb')]
    next h =>
      have hdiv : n / base < n := Nat.div_lt_self (by omega) hb
      have hmod : n % base < 16 := Nat.lt_of_lt_of_le (Nat.mod_lt n (by omega)) hb'
      have hn := ih _ hdiv
      simp only [valueOf, List.foldl_append, List.foldl_cons, List.foldl_nil] at hn ⊢
      rw [hn, digitValue_digitChar hmod, Nat.div_add_mod']

theorem valueOf_zeros (base : Nat) (digits : List Char) :
    ∀ k, valueOf base (List.replicate k '0' ++ digits) = valueOf base digits
  | 0 => rfl
  | k + 1 => by
    have h0 : digitValue '0' = 0 := by decide
    have ih := valueOf_zeros base digits k
    simp only [valueOf, List.replicate_succ, List.cons_append, List.foldl_cons, h0] at ih ⊢
    simpa using ih

/-- **Padded numbers differ** where the numbers do, however many digits they have. -/
theorem padded_injective {base width m n : Nat} (hb : 1 < base) (hb' : base ≤ 16)
    (h : padded base width m = padded base width n) : m = n := by
  have hdigits := congrArg (valueOf base) (String.ofList_injective h)
  rwa [valueOf_zeros, valueOf_zeros, valueOf_toDigits hb hb', valueOf_toDigits hb hb'] at hdigits

theorem mintedId_injective {m n : Nat} (h : mintedId m = mintedId n) : m = n := by
  have hlists := congrArg String.toList h
  simp only [mintedId, String.toList_append, List.append_cancel_left_eq,
    List.append_cancel_right_eq] at hlists
  exact padded_injective (by decide) (by decide) (String.toList_injective hlists)

theorem mintedToken_injective {m n : Nat} (h : mintedToken m = mintedToken n) : m = n := by
  have hlists := congrArg String.toList h
  simp only [mintedToken, String.toList_append, List.append_cancel_left_eq,
    List.append_cancel_right_eq] at hlists
  exact padded_injective (by decide) (by decide) (String.toList_injective hlists)

/-! The account of a history. -/

/-- The documents that the history wrote, in order. -/
def written (history : List Change) : List Document :=
  history.filterMap Change.document?

theorem written_append (history more : List Change) :
    written (history ++ more) = written history ++ written more :=
  List.filterMap_append

/-- The numbers, ids and tokens of the store are those of its history. -/
structure Accounted (history : List Change) (s : Store) : Prop where
  /-- The counter counts the writes. -/
  sequence : s.sequence = (written history).length
  /-- The token of a document is the number of its write. -/
  tokens : ∀ i doc, (written history)[i]? = some doc → doc.token? = some (mintedToken (i + 1))
  /-- The id of a document is a number that was given before. -/
  ids : ∀ doc ∈ written history, ∃ n, n ≤ s.sequence ∧ doc.resourceId? = some (mintedId n)
  /-- What is stored was written. -/
  stored : s.Each fun _ documents => ∀ x ∈ documents, x.document ∈ written history
  /-- What is stored links to itself by its id. -/
  links : s.Each fun c documents => ∀ x ∈ documents,
    x.document.text? "_self" = x.document.resourceId?.map (selfLink c)

variable {history : List Change} {s next : Store} {made : Call} {change : Option Change}

theorem accounted_write {doc : Document} {a : Address} {resourceId : String} {time : Json.Whole}
    {payload : Document} {c : Container} (h : Accounted history s)
    (counted : next.sequence = s.sequence + 1)
    (stamped : doc = stamp time (s.sequence + 1) c resourceId payload)
    (given : ∃ n, n ≤ s.sequence + 1 ∧ resourceId = mintedId n)
    (stored : next.Each fun _ documents => ∀ x ∈ documents,
      x.document ∈ written history ∨ x.document = doc)
    (links : next.Each fun c documents => ∀ x ∈ documents,
      x.document.text? "_self" = x.document.resourceId?.map (selfLink c)) :
    Accounted (history ++ [.wrote a doc]) next := by
  have hw : written (history ++ [.wrote a doc]) = written history ++ [doc] :=
    written_append history [.wrote a doc]
  obtain ⟨m, hm, hid⟩ := given
  refine ⟨?_, ?_, ?_, ?_, links⟩
  · rw [counted, hw, List.length_append, h.sequence]
    rfl
  · intro i found hi
    rw [hw, List.getElem?_append] at hi
    split at hi
    · exact h.tokens i found hi
    -- The new document is the last, where the counter pointed.
    next hlen =>
      rw [List.getElem?_singleton] at hi
      split at hi
      next h0 =>
        have hlast : i = s.sequence := by rw [h.sequence]; omega
        rw [← Option.some.inj hi, stamped, token?_stamp, hlast]
      next => cases hi
  · intro found hfound
    rw [hw] at hfound
    rw [counted]
    rcases List.mem_append.mp hfound with hfound | hfound
    · obtain ⟨n, hn, hn'⟩ := h.ids found hfound
      exact ⟨n, by omega, hn'⟩
    · rw [List.mem_singleton.mp hfound]
      exact ⟨m, hm, by rw [stamped, resourceId?_stamp, hid]⟩
  · intro d documents hd x hx
    rw [hw]
    rcases stored d documents hd x hx with hx | hx
    · exact List.mem_append_left _ hx
    · rw [hx]
      exact List.mem_append_right _ (List.mem_singleton_self _)

theorem resourceId_of_stored (h : Accounted history s) {c : Container} {documents : List Stored}
    {x : Stored} (found : s.documents? c = .ok documents) (hx : x ∈ documents) :
    ∃ n, n ≤ s.sequence ∧ x.document.resourceId? = some (mintedId n) :=
  h.ids _ (h.stored c documents found x hx)

theorem token_of_stored (h : Accounted history s) {c : Container} {documents : List Stored}
    {x : Stored} (found : s.documents? c = .ok documents) (hx : x ∈ documents) :
    ∃ n, n ≤ s.sequence ∧ x.document.token? = some (mintedToken n) := by
  obtain ⟨i, hi⟩ := List.getElem?_of_mem (h.stored c documents found x hx)
  have early : i < (written history).length := (List.getElem?_eq_some_iff.mp hi).1
  refine ⟨i + 1, ?_, h.tokens i _ hi⟩
  rw [h.sequence]
  exact early

theorem accounted_of_effect (h : Accounted history s) (effect : Effect made s change next) :
    Accounted (history ++ change.toList) next := by
  have links : next.Each fun c documents => ∀ x ∈ documents,
      x.document.text? "_self" = x.document.resourceId?.map (selfLink c) := by
    apply each_stored_of_effect h.links effect
    · rintro payload doc a - rfl -
      rw [selfLink_stamp, resourceId?_stamp, Option.map_some]
    · rintro payload doc a old - rfl - -
      rw [selfLink_stamp, resourceId?_stamp, Option.map_some]
  cases effect with
  | unchanged => rwa [Option.toList_none, List.append_nil]
  | appended carried stamped named nonempty found fresh =>
    refine accounted_write h rfl stamped ⟨_, Nat.le_refl _, rfl⟩ ?_ links
    refine each_setDocuments (fun c documents hd x hx => Or.inl (h.stored c documents hd x hx)) found
      fun x hx => ?_
    rcases List.mem_append.mp hx with hx | hx
    · exact Or.inl (h.stored _ _ found x hx)
    · rw [List.mem_singleton.mp hx]
      exact Or.inr rfl
  | overwritten carried stamped named nonempty found live =>
    -- The id comes from the document that is overwritten, and was given to it before.
    obtain ⟨n, hn, hid⟩ := resourceId_of_stored h found (List.mem_of_find?_eq_some live)
    rw [hid, Option.getD_some] at stamped
    refine accounted_write h rfl stamped ⟨n, by omega, rfl⟩ ?_ links
    refine each_setDocuments (fun c documents hd x hx => Or.inl (h.stored c documents hd x hx)) found
      fun x hx => ?_
    rcases Stored.mem_overwriteFirst hx with hx | ⟨y, -, rfl⟩
    · exact Or.inl (h.stored _ _ found x hx)
    · exact Or.inr rfl
  | @removed a documents old found live =>
    have hw : written (history ++ [Change.removed a]) = written history :=
      (written_append history [Change.removed a]).trans (List.append_nil _)
    rw [Option.toList_some]
    refine ⟨hw ▸ h.sequence, fun i doc hi => h.tokens i doc (hw ▸ hi),
      fun doc hdoc => h.ids doc (hw ▸ hdoc), ?_, links⟩
    rw [hw]
    exact each_setDocuments h.stored found fun x hx => h.stored _ _ found x (List.mem_of_mem_eraseP hx)

/-- **Every number is accounted for** along every run. -/
theorem accounted_run (ops : List Operation) : Accounted (changes ops empty) (run ops empty) :=
  run_induction Accounted
    (fun _ _ name h => ⟨h.sequence, h.tokens, h.ids, each_createDatabase h.stored name,
      each_createDatabase h.links name⟩)
    (fun _ _ _ h => ⟨h.sequence, h.tokens, h.ids,
      each_createCollection h.stored (List.forall_mem_nil _),
      each_createCollection h.links (List.forall_mem_nil _)⟩)
    (fun _ _ _ _ _ h effect => accounted_of_effect h effect)
    ops [] empty ⟨rfl, fun _ _ h => (nomatch h), List.forall_mem_nil _, each_empty, each_empty⟩

/-- One token, one write: two documents of a history with the same token are the same. -/
theorem eq_of_token (h : Accounted history s) {d e : Document} (hd : d ∈ written history)
    (he : e ∈ written history) (token : d.token? = e.token?) : d = e := by
  obtain ⟨i, hi⟩ := List.getElem?_of_mem hd
  obtain ⟨j, hj⟩ := List.getElem?_of_mem he
  rw [h.tokens i d hi, h.tokens j e hj, Option.some.injEq] at token
  have hij : i = j := Nat.succ.inj (mintedToken_injective token)
  rw [hij, hj] at hi
  exact (Option.some.inj hi).symm

end DocumentStore.Store
