import DocumentStore.CommandLine.Reply
import DocumentStore.Proofs.Store.Reload

/- One process for each command, or one session for all. A process loads the store from the snapshot
   file and saves it there if its command has written, while a session keeps the store. Where every
   value is one that a snapshot gives back, the two answer alike, and in the end the file holds the
   store of the session (`processes_eq_session`). -/
namespace DocumentStore.CommandLine

open Json (Value Whole)
open Json

/-! Commands one after another. -/

/-- A command with its arguments as the words of a command line. -/
inductive Task where
  | createCollection (c : Container)
  | exec (statement : String) (words : List String)
  | query (statement : String) (words : List String)

def Task.command : Task → Command
  | .createCollection c => .createCollection c
  | .exec statement words => .exec statement (words.map argument)
  | .query statement words => .query statement (words.map argument)

/-- What the commands share: the snapshot file and the options. -/
structure Setup where
  data : String
  settings : Settings
  pageSize : Nat

def Setup.invocation (setup : Setup) (command : Command) : Invocation :=
  ⟨setup.data, setup.settings, setup.pageSize, command⟩

/-- A task with the clock at which it runs. -/
abbrev Job :=
  Whole × Task

/-- Takes one step for each job, on what the step before it has left, and lists the answers. -/
def answers {σ α : Type} (step : Job → σ → α × σ) : List Job → σ → List α × σ
  | [], state => ([], state)
  | job :: jobs, state =>
    let (answer, state) := step job state
    let (rest, state) := answers step jobs state
    (answer :: rest, state)

/-- A process of its own: it starts from the content of the file, and leaves what it has saved. -/
def Setup.process (setup : Setup) (job : Job) (content : Content) :
    Except Failure String × Content :=
  match (setup.invocation job.2.command).run job.1 content with
  | .error e => (.error e, content)
  | .ok reply => (.ok reply.printed, (reply.saved.map Content.text).getD content)

/-- A command of a session over one store. -/
def Setup.answer (setup : Setup) (job : Job) (s : Store) : Except Failure String × Store :=
  job.2.command.run (.ofStore setup.pageSize job.1 setup.settings) s

/-! Values that a snapshot gives back. -/

/-- The value has no binary64 number and nests no deeper than a snapshot allows. -/
def Plain (v : Value) : Prop :=
  v.Integral ∧ v.depth ≤ Store.valueDepth

/-- The arguments and the literals of the task are plain, if it is one that may write them. -/
def Task.Plain : Task → Prop
  | .exec statement words => (∀ word ∈ words, CommandLine.Plain (argument word)) ∧
      ∀ s, Statement.parse statement = .ok s → s.Holds CommandLine.Plain
  | .createCollection _ | .query _ _ => True

/-- A plain value as readers leave it. -/
def Kept (v : Value) : Prop :=
  v.Sorted ∧ Plain v

theorem kept_attributes : OfAttributes Kept :=
  ⟨fun _ => ⟨trivial, trivial, Nat.zero_le _⟩, fun _ => ⟨trivial, trivial, Nat.zero_le _⟩⟩

theorem sorted_argument (word : String) : (argument word).Sorted := by
  unfold argument
  cases h : Value.read? word with
  | none => trivial
  | some v => exact Value.sorted_of_read? h

variable {setup : Setup} {job : Job} {content : Content} {s : Store}

theorem loadStore_save (kept : s.Holds Kept) (counter : s.sequence < Number.significandLimit)
    (path : String) : loadStore path (.text s.save) = .ok s := by
  have sorted : s.Each fun _ documents => ∀ x ∈ documents, x.Sorted := kept.mono fun _ h => h.1
  have loadable : s.Each fun _ documents => ∀ x ∈ documents, x.Loadable :=
    kept.mono fun v h => ⟨h.2.2, Value.numbersReadBack_of_integral v h.2.1⟩
  rw [loadStore, (Store.load?_save sorted).mpr ⟨counter, loadable⟩]

theorem kept_of_loaded {path : String} (loaded : loadStore path content = .ok s)
    (integral : s.Holds Value.Integral) : s.Holds Kept := by
  cases content with
  | absent =>
    cases loaded
    exact Store.each_empty
  | unreadable => cases loaded
  | text text =>
    rw [loadStore] at loaded
    split at loaded
    next store hload =>
      cases loaded
      have shaped := (Store.shaped_of_load? hload).2
      exact (shaped.and integral).mono fun v h => ⟨h.1.1, h.2, h.1.2⟩
    next => cases loaded

/-! One command of a session. The equations of `run` would be checked by parsing the text, so it is
    unfolded as it stands. -/

namespace Command

variable (session : Session Store) (text : String) (args : List Value)

theorem run_exec_store :
    ((Command.exec text args).run session s).2 = (session.exec text args s).2 := by
  delta run
  simp only
  generalize session.exec text args s = done
  obtain ⟨answer, next⟩ := done
  cases answer <;> rfl

theorem not_succeeded_of_failed {e : Failure}
    (h : ((Command.exec text args).run session s).1 = .error e) :
    succeeded (session.exec text args s).1 = false := by
  delta run at h
  simp only at h
  generalize session.exec text args s = done at h ⊢
  obtain ⟨answer, next⟩ := done
  cases answer with
  | error e => rfl
  | ok outcome => cases h

theorem run_query_store :
    ((Command.query text args).run session s).2 = (session.query text args s).2 := by
  delta run
  simp only
  generalize session.query text args s = done
  obtain ⟨answer, next⟩ := done
  cases answer with
  | none => rfl
  | some answer => cases answer <;> rfl

end Command

theorem answer_exec (time : Whole) (text : String) (words : List String) :
    (setup.answer (time, .exec text words) s).2 =
      ((Session.ofStore setup.pageSize time setup.settings).exec text (words.map argument) s).2 :=
  Command.run_exec_store _ text (words.map argument)

theorem answer_query (time : Whole) (text : String) (words : List String) :
    (setup.answer (time, .query text words) s).2 = s := by
  have left := Command.run_query_store (s := s)
    (Session.ofStore setup.pageSize time setup.settings) text (words.map argument)
  exact left.trans Session.query_store

theorem answer_failed {e : Failure} (failed : (setup.answer job s).1 = .error e) :
    (setup.answer job s).2 = s := by
  obtain ⟨time, task⟩ := job
  cases task with
  | createCollection c => cases failed
  | exec text words =>
    rw [answer_exec]
    exact Session.store_of_not_succeeded
      (Command.not_succeeded_of_failed _ text (words.map argument) failed)
  | query text words => exact answer_query time text words

theorem sequence_le_answer (setup : Setup) (job : Job) (s : Store) :
    s.sequence ≤ (setup.answer job s).2.sequence := by
  obtain ⟨time, task⟩ := job
  cases task with
  | createCollection c => exact Nat.le_refl _
  | exec text words =>
    rw [answer_exec]
    exact Session.sequence_le_exec
  | query text words =>
    exact Nat.le_of_eq (congrArg Store.sequence (answer_query time text words).symm)

/-- A plain task keeps the values of the store such as a snapshot gives back. -/
theorem kept_answer (kept : s.Holds Kept) (plain : job.2.Plain) :
    (setup.answer job s).2.Holds Kept := by
  obtain ⟨time, task⟩ := job
  cases task with
  | createCollection c => exact Store.each_createCollection kept (List.forall_mem_nil _)
  | exec text words =>
    obtain ⟨arguments, literals⟩ := plain
    have hargs : ∀ v ∈ words.map argument, Kept v := by
      intro v hv
      obtain ⟨word, hword, rfl⟩ := List.mem_map.mp hv
      exact ⟨sorted_argument word, arguments word hword⟩
    rw [answer_exec]
    exact Session.holds_exec kept_attributes kept hargs
      fun statement parsed => (Statement.sorted_parse parsed).and (literals statement parsed)
  | query text words =>
    rw [answer_query]
    exact kept

theorem answer_not_writing (h : job.2.command.writes = false) : (setup.answer job s).2 = s := by
  obtain ⟨time, task⟩ := job
  cases task with
  | createCollection c => cases h
  | exec text words => cases h
  | query text words => exact answer_query time text words

/-! One process. -/

theorem run_of_loaded (loaded : loadStore setup.data content = .ok s) :
    (setup.invocation job.2.command).run job.1 content = match setup.answer job s with
      | (.error e, _) => .error e
      | (.ok printed, next) =>
        .ok ⟨if job.2.command.writes then some next.save else none, printed⟩ := by
  delta Invocation.run
  simp only [Setup.invocation, loaded]
  rfl

theorem process_of_loaded (loaded : loadStore setup.data content = .ok s) :
    setup.process job content = match setup.answer job s with
      | (.error e, _) => (.error e, content)
      | (.ok printed, next) =>
        (.ok printed, if job.2.command.writes then .text next.save else content) := by
  rw [Setup.process, run_of_loaded loaded]
  generalize setup.answer job s = done
  obtain ⟨answer, next⟩ := done
  cases answer with
  | error e => rfl
  | ok printed => cases job.2.command.writes <;> rfl

/-- **A process** answers as the session does, and leaves a file that holds the store of the
    session. -/
theorem process_eq_answer (loaded : loadStore setup.data content = .ok s) (kept : s.Holds Kept)
    (plain : job.2.Plain)
    (counter : (setup.answer job s).2.sequence < Number.significandLimit) :
    (setup.process job content).1 = (setup.answer job s).1 ∧
      loadStore setup.data (setup.process job content).2 = .ok (setup.answer job s).2 := by
  have saved := loadStore_save (kept_answer kept plain) counter setup.data
  have failed : ∀ e, (setup.answer job s).1 = .error e → (setup.answer job s).2 = s :=
    fun e => answer_failed
  have unwritten : job.2.command.writes = false → (setup.answer job s).2 = s := answer_not_writing
  rw [process_of_loaded loaded]
  generalize setup.answer job s = done at saved failed unwritten ⊢
  obtain ⟨answer, next⟩ := done
  cases answer with
  | error e =>
    cases failed e rfl
    exact ⟨rfl, loaded⟩
  | ok printed =>
    cases writes : job.2.command.writes with
    | true => exact ⟨rfl, saved⟩
    | false =>
      cases unwritten writes
      exact ⟨rfl, loaded⟩

/-! All of them. -/

theorem sequence_le_answers (setup : Setup) (jobs : List Job) (s : Store) :
    s.sequence ≤ (answers setup.answer jobs s).2.sequence := by
  induction jobs generalizing s with
  | nil => exact Nat.le_refl _
  | cons job jobs ih => exact Nat.le_trans (sequence_le_answer setup job s) (ih _)

theorem answers_process_eq (jobs : List Job) (loaded : loadStore setup.data content = .ok s)
    (kept : s.Holds Kept) (plain : ∀ job ∈ jobs, job.2.Plain)
    (counter : (answers setup.answer jobs s).2.sequence < Number.significandLimit) :
    (answers setup.process jobs content).1 = (answers setup.answer jobs s).1 ∧
      loadStore setup.data (answers setup.process jobs content).2 =
        .ok (answers setup.answer jobs s).2 := by
  induction jobs generalizing content s with
  | nil => exact ⟨rfl, loaded⟩
  | cons job jobs ih =>
    obtain ⟨first, others⟩ := List.forall_mem_cons.mp plain
    -- The counter of a store on the way is no greater than the last.
    have early := Nat.lt_of_le_of_lt (sequence_le_answers setup jobs _) counter
    obtain ⟨same, loaded'⟩ := process_eq_answer loaded kept first early
    obtain ⟨rest, last⟩ := ih loaded' (kept_answer kept first) others counter
    exact ⟨by simp only [answers, same, rest], last⟩

/-- **One process for each command** is as good as one session for all. Let the file be absent or
    hold a store without binary64 numbers, let the literals and the arguments of the statements be
    plain, and let the counter fit 64 bits in the end. Then every command gives the same result or
    the same failure in a process of its own as in a session over the store of the file, and in the
    end the file holds the store of the session. -/
theorem processes_eq_session (setup : Setup) (jobs : List Job) {content : Content} {s : Store}
    (loaded : loadStore setup.data content = .ok s) (integral : s.Holds Value.Integral)
    (plain : ∀ job ∈ jobs, job.2.Plain)
    (counter : (answers setup.answer jobs s).2.sequence < Number.significandLimit) :
    let processes := answers setup.process jobs content
    let session := answers setup.answer jobs s
    processes.1 = session.1 ∧ loadStore setup.data processes.2 = .ok session.2 :=
  answers_process_eq jobs loaded (kept_of_loaded loaded integral) plain counter

/-- A document is inserted into a new collection, and then again, which is refused. Then it is
    found. -/
theorem processes_insertTwice :
    let setup : Setup := ⟨"docsql.json", {}, Store.defaultPageSize⟩
    let insert : Task := .exec "INSERT INTO d.c (id, x) VALUES (:1, :2)" ["o1", "[1,[true]]", "o1"]
    let jobs : List Job := [(.zero, .createCollection ⟨"d", "c"⟩), (.zero, insert), (.zero, insert),
      (.zero, .query "SELECT * FROM c WITH db=d" [])]
    (∀ job ∈ jobs, job.2.Plain) ∧
    (answers setup.answer jobs .empty).2.sequence < Number.significandLimit ∧
    (answers setup.process jobs .absent).1 = (answers setup.answer jobs .empty).1 ∧
    loadStore "docsql.json" (answers setup.process jobs .absent).2 =
      .ok (answers setup.answer jobs .empty).2 := by
  intro setup insert jobs
  have name : argument "o1" = .string "o1" := by decide +kernel
  have value : argument "[1,[true]]" =
      .array [.number (.whole ⟨1, by decide⟩), .array [.bool true]] := by decide +kernel
  have inserts : insert.Plain := by
    constructor
    · intro word hword
      have cases : word = "o1" ∨ word = "[1,[true]]" ∨ word = "o1" := by simpa using hword
      rcases cases with rfl | rfl | rfl
      · rw [name]
        exact ⟨trivial, by decide⟩
      · rw [value]
        exact ⟨⟨trivial, ⟨trivial, trivial⟩, trivial⟩, by decide⟩
      · rw [name]
        exact ⟨trivial, by decide⟩
    · intro statement parsed
      cases Store.parse_insertion.symm.trans parsed
      intro operand hoperand
      have cases : operand = .placeholder 1 ∨ operand = .placeholder 2 := by simpa using hoperand
      rcases cases with rfl | rfl <;> trivial
  have plain : ∀ job ∈ jobs, job.2.Plain :=
    List.forall_mem_cons.mpr ⟨trivial, List.forall_mem_cons.mpr ⟨inserts,
      List.forall_mem_cons.mpr ⟨inserts, List.forall_mem_cons.mpr ⟨trivial,
        List.forall_mem_nil _⟩⟩⟩⟩
  have counter : (answers setup.answer jobs .empty).2.sequence < Number.significandLimit := by
    decide +kernel
  exact ⟨plain, counter, processes_eq_session setup jobs rfl Store.each_empty plain counter⟩

end DocumentStore.CommandLine
