import Mathlib.Data.List.Infix
import ShopValidation.Database.Program

/-!
# What a batch says to the database

The database may answer every command as it likes. A batch has a script: it begins a transaction, sends
its statements in order, and commits. It goes along its script reply by reply, and the first reply to
which there is an objection is the last one that it hears, apart from the reply to the rollback.

So the commit is sent only after every statement went well, the result tells the first objection, and
whatever the database has done by then is taken back. Nothing is assumed about the database.
-/

namespace ShopValidation

/-- A command with its reply. -/
abbrev Exchange := Command × DatabaseReply

namespace Exchange

/-- Why a batch does not go on after an exchange, if it does not: the database reports an error, there
is no row of the shop to update, or an insertion answers no id. A deletion may find nothing. -/
def objection? : Exchange → Option StoreError
  | (command, .answered rows affected) =>
    match command with
    | .run (.updateShop _ _ id) => if affected = 0 then some (.shopNotFound id) else none
    | .run (.insertTask _) =>
      match Row.single Row.id rows with
      | .ok _ => none
      | .error error => some error
    | _ => none
  | (_, .failed message) => some (Program.databaseError message)

/-- The id that an insertion answers. -/
def insertedId? : Exchange → Option TaskId
  | (.run (.insertTask _), .answered rows _) => (Row.single Row.id rows).toOption.map TaskId.mk
  | _ => none

end Exchange

/-- The error with which a program ends, if it does. -/
def Program.error? {α : Type} : Except StoreError α → Option StoreError
  | .ok _ => none
  | .error error => some error

/-- The statements for one validation. -/
def Applied.commands (one : Applied) : List Command :=
  [.run (.updateShop one.coordinates one.validatedAt one.shopId), .run (.deleteTask one.taskId)]

/-- The statement for one request. -/
def NewTask.command (request : NewTask) : Command := .run (.insertTask request)

/-- A talk goes along a script, up to its end or to the first objection. -/
inductive Follows : List Command → List Exchange → Option StoreError → Prop where
  | finished : Follows [] [] none
  | goOn {command : Command} {reply : DatabaseReply} {script : List Command} {talk : List Exchange}
    {error? : Option StoreError} (hfine : Exchange.objection? (command, reply) = none)
    (hrest : Follows script talk error?) :
    Follows (command :: script) ((command, reply) :: talk) error?
  | stop {command : Command} {reply : DatabaseReply} {error : StoreError}
    (hobjection : Exchange.objection? (command, reply) = some error) (script : List Command) :
    Follows (command :: script) [(command, reply)] (some error)

namespace Follows

variable {script script' : List Command} {talk talk' : List Exchange} {error? : Option StoreError}
  {error : StoreError}

/-- After a script that went well another one may follow. -/
theorem append (h : Follows script talk none) (h' : Follows script' talk' error?) :
    Follows (script ++ script') (talk ++ talk') error? := by
  generalize hnone : (none : Option StoreError) = fine at h
  induction h with
  | finished => exact h'
  | goOn hfine _ ih => exact .goOn hfine (ih hnone)
  | stop => cases hnone

/-- After an objection it does not matter what else was to be said. -/
theorem append_of_error (h : Follows script talk (some error)) (script' : List Command) :
    Follows (script ++ script') talk (some error) := by
  generalize hsome : some error = stopped at h ⊢
  induction h with
  | finished => cases hsome
  | goOn hfine _ ih => exact .goOn hfine (ih hsome)
  | stop hobjection script => exact .stop hobjection _

/-- The commands are sent in the order of the script. -/
theorem commands_prefix (h : Follows script talk error?) : talk.map Prod.fst <+: script := by
  induction h with
  | finished => exact List.prefix_rfl
  | goOn _ _ ih => exact (List.prefix_cons_inj _).mpr ih
  | stop _ script => exact ⟨script, rfl⟩

/-- An objection is to the last reply, and there is none to a reply before. -/
theorem objections (h : Follows script talk error?) :
    talk.getLast?.bind Exchange.objection? = error? ∧
      ∀ exchange ∈ talk.dropLast, exchange.objection? = none := by
  induction h with
  | finished => exact ⟨rfl, by simp⟩
  | @goOn command reply script talk error? hfine hrest ih =>
    cases talk with
    | nil =>
      cases hrest
      exact ⟨hfine, by simp⟩
    | cons next talk =>
      rw [List.getLast?_cons_cons, List.dropLast_cons_cons, List.forall_mem_cons]
      exact ⟨ih.1, hfine, ih.2⟩
  | stop hobjection => exact ⟨hobjection, by simp⟩

/-- Where there is no objection in the end, there is none to any reply. -/
theorem forall_fine (h : Follows script talk none) :
    ∀ exchange ∈ talk, exchange.objection? = none := by
  generalize hnone : (none : Option StoreError) = fine at h
  induction h with
  | finished => simp
  | goOn hfine _ ih => exact List.forall_mem_cons.mpr ⟨hnone ▸ hfine, ih hnone⟩
  | stop => cases hnone

/-- A talk along two scripts stops in the first, or goes on to the second. -/
theorem append_cases (h : Follows (script ++ script') talk error?) :
    (∃ error, error? = some error ∧ Follows script talk (some error)) ∨
    ∃ before after, talk = before ++ after ∧ Follows script before none ∧
      Follows script' after error? := by
  induction script generalizing talk with
  | nil => exact .inr ⟨[], talk, rfl, .finished, h⟩
  | cons command script ih =>
    cases h with
    | goOn hfine hrest =>
      rcases ih hrest with ⟨error, herror, hstop⟩ | ⟨before, after, rfl, hbefore, hafter⟩
      · exact .inl ⟨error, herror, .goOn hfine hstop⟩
      · exact .inr ⟨_ :: before, after, rfl, .goOn hfine hbefore, hafter⟩
    | stop hobjection => exact .inl ⟨_, rfl, .stop hobjection script⟩

/-- Where nothing is said, there was nothing to say. -/
theorem eq_nil_of_nil (h : Follows script [] error?) : script = [] := by
  cases h
  rfl

/-- A talk along one command is one exchange. -/
theorem of_singleton {command : Command} (h : Follows [command] talk error?) :
    ∃ reply, talk = [(command, reply)] ∧ Exchange.objection? (command, reply) = error? := by
  cases h with
  | goOn hfine hrest =>
    cases hrest
    exact ⟨_, rfl, hfine⟩
  | stop hobjection => exact ⟨_, rfl, hobjection⟩

end Follows

/-- What a transaction with these statements says, and what it says after an objection. -/
structure AllOrNothing (script : List Command) (talk undo : List Exchange)
    (error? : Option StoreError) : Prop where
  commands : talk.map Prod.fst <+: .begin :: script ++ [.commit]
  earlier : ∀ exchange ∈ talk.dropLast, exchange.objection? = none
  commits_iff : .commit ∈ talk.map Prod.fst ↔
    ∀ exchange ∈ talk, exchange.1 ≠ .commit → exchange.objection? = none
  succeeds_iff : error? = none ↔ ∃ rows affected, (.commit, .answered rows affected) ∈ talk
  error_eq : error? = talk.getLast?.bind Exchange.objection?
  undone : undo.map Prod.fst = if error? = none ∨ talk.length = 1 then [] else [.rollback]

/-- An error is the objection to the last reply, and the last command is in the script. -/
theorem AllOrNothing.exists_last {α : Type} {script : List Command} {talk undo : List Exchange}
    {result : Except StoreError α} {error : StoreError}
    (h : AllOrNothing script talk undo (Program.error? result)) (herror : result = .error error) :
    ∃ last, talk.getLast? = some last ∧ last.1 ∈ .begin :: script ++ [.commit] ∧
      last.objection? = some error := by
  have heq := h.error_eq.symm
  rw [herror] at heq
  obtain ⟨last, hlast, hobjection⟩ := Option.bind_eq_some_iff.mp heq
  have hsent := List.mem_map_of_mem (f := Prod.fst) (List.mem_of_getLast? hlast)
  exact ⟨last, hlast, h.commands.subset hsent, hobjection⟩

/-- A talk along the script of a transaction comes to the commit if there is no objection before. -/
theorem Follows.allOrNothing {script : List Command} {talk undo : List Exchange}
    {error? : Option StoreError} (h : Follows (.begin :: script ++ [.commit]) talk error?)
    (hscript : .commit ∉ script)
    (hundone : undo.map Prod.fst = if error? = none ∨ talk.length = 1 then [] else [.rollback]) :
    AllOrNothing script talk undo error? := by
  have hnever {said : List Exchange} (hsaid : said.map Prod.fst <+: .begin :: script) :
      .commit ∉ said.map Prod.fst := by
    intro hmem
    exact hscript (by simpa using hsaid.subset hmem)
  have hiffs : (.commit ∈ talk.map Prod.fst ↔
        ∀ exchange ∈ talk, exchange.1 ≠ .commit → exchange.objection? = none) ∧
      (error? = none ↔ ∃ rows affected, (.commit, .answered rows affected) ∈ talk) := by
    rcases h.append_cases with ⟨error, rfl, hstop⟩ | ⟨before, after, rfl, hbefore, hafter⟩
    · have hnone := hnever hstop.commands_prefix
      refine ⟨iff_of_false hnone fun hfine => ?_, iff_of_false nofun ?_⟩
      · obtain ⟨last, hlast, hobjection⟩ := Option.bind_eq_some_iff.mp hstop.objections.1
        have hmem := List.mem_of_getLast? hlast
        rw [hfine last hmem fun heq => hnone (heq ▸ List.mem_map_of_mem hmem)] at hobjection
        cases hobjection
      · rintro ⟨rows, affected, hmem⟩
        exact hnone (List.mem_map_of_mem hmem)
    · obtain ⟨reply, rfl, hobjection⟩ := hafter.of_singleton
      have hnone := hnever hbefore.commands_prefix
      refine ⟨iff_of_true (by simp) fun exchange hmem hother => ?_, ?_⟩
      · rcases List.mem_append.mp hmem with hearly | hlast
        · exact hbefore.forall_fine exchange hearly
        · obtain rfl := List.mem_singleton.mp hlast
          exact absurd rfl hother
      · cases reply with
        | answered rows affected => exact iff_of_true hobjection.symm ⟨rows, affected, by simp⟩
        | failed message =>
          refine iff_of_false (hobjection ▸ nofun) ?_
          rintro ⟨rows, affected, hmem⟩
          rcases List.mem_append.mp hmem with hearly | hlast
          · exact hnone (List.mem_map_of_mem hearly)
          · cases List.mem_singleton.mp hlast
  exact ⟨h.commands_prefix, h.objections.2, hiffs.1, hiffs.2, h.objections.1.symm, hundone⟩

namespace Program

variable {α β σ : Type} (server : Command → σ → DatabaseReply × σ)

/-- What a program and a server say to each other, in order. -/
def exchanges : Program α → σ → List Exchange
  | .done _, _ => []
  | .send command next, s =>
    (command, (server command s).1) ::
      (next (server command s).1).exchanges (server command s).2

/-- A program that goes on says first what the first part says. -/
theorem exchanges_andThen (program : Program α) (next : α → Program β) (s : σ) :
    (program.andThen next).exchanges server s =
      program.exchanges server s ++
        match program.run server s with
        | (.ok a, after) => (next a).exchanges server after
        | (.error _, _) => [] := by
  induction program generalizing s with
  | done result => cases result <;> rfl
  | send command after ih => exact congrArg (_ :: ·) (ih _ _)

/-- A transaction that has begun says what its program says, and then ends. -/
theorem exchanges_commit (program : Program α) (s : σ) :
    program.commit.exchanges server s =
      program.exchanges server s ++
        match program.run server s with
        | (.ok _, after) =>
          (.commit, (server .commit after).1) ::
            match server .commit after with
            | (.answered _ _, _) => []
            | (.failed _, last) => [(.rollback, (server .rollback last).1)]
        | (.error _, after) => [(.rollback, (server .rollback after).1)] := by
  induction program generalizing s with
  | done result =>
    cases result with
    | error error => rfl
    | ok a =>
      rcases hreply : server .commit s with ⟨reply, last⟩
      cases reply <;> simp [commit, exchanges, run, hreply]
  | send command after ih => exact congrArg (_ :: ·) (ih _ _)

/-- A program goes along a script, and its error is the objection if there is one. -/
def Obeys (server : Command → σ → DatabaseReply × σ) (program : Program α) (script : List Command)
    (s : σ) : Prop :=
  Follows script (program.exchanges server s) (error? (program.run server s).1)

variable {server} {s : σ} {program : Program α} {script script' : List Command}

/-- A program that goes on goes along two scripts. -/
theorem Obeys.andThen {next : α → Program β} (h : program.Obeys server script s)
    (hnext : ∀ a after, (next a).Obeys server script' after) :
    (program.andThen next).Obeys server (script ++ script') s := by
  unfold Obeys at h ⊢
  rw [exchanges_andThen, run_andThen]
  rcases hrun : program.run server s with ⟨error | a, after⟩
  · rw [hrun] at h
    rw [List.append_nil]
    exact Follows.append_of_error h script'
  · rw [hrun] at h
    exact h.append (hnext a after)

/-- One command is sent, and what is read from the reply is an error where there is an objection. -/
theorem obeys_send {command : Command} {next : DatabaseReply → Program α}
    (hnext : ∀ reply, ∃ result, next reply = .done result ∧
      Exchange.objection? (command, reply) = error? result) :
    (send command next).Obeys server [command] s := by
  obtain ⟨result, hdone, hobjection⟩ := hnext (server command s).1
  unfold Obeys
  rw [run_send, exchanges, hdone, exchanges, run, ← hobjection]
  cases herror : Exchange.objection? (command, (server command s).1) with
  | none => exact .goOn herror .finished
  | some error => exact .stop herror []

/-- An update objects to no row. -/
theorem obeys_updateShop (one : Applied) :
    (execute (.updateShop one.coordinates one.validatedAt one.shopId)
      (some (.shopNotFound one.shopId))).Obeys server
      [.run (.updateShop one.coordinates one.validatedAt one.shopId)] s := by
  refine obeys_send fun reply => ?_
  cases reply with
  | answered rows affected =>
    refine ⟨_, rfl, ?_⟩
    simp only [Exchange.objection?]
    split <;> rfl
  | failed message => exact ⟨_, rfl, rfl⟩

/-- A deletion does not object to no row. -/
theorem obeys_deleteTask (id : TaskId) :
    (execute (.deleteTask id) none).Obeys server [.run (.deleteTask id)] s := by
  refine obeys_send fun reply => ?_
  cases reply <;> exact ⟨_, rfl, rfl⟩

/-- An insertion objects to no id. -/
theorem obeys_insertTask (request : NewTask) :
    (query (.insertTask request) (Row.single Row.id)).Obeys server [request.command] s := by
  refine obeys_send fun reply => ?_
  cases reply with
  | answered rows affected =>
    refine ⟨_, rfl, ?_⟩
    simp only [Exchange.objection?]
    split <;> simp_all [error?]
  | failed message => exact ⟨_, rfl, rfl⟩

/-- Validations are written one after another. -/
theorem obeys_applyAll (applied : List Applied) (s : σ) :
    (applyAll applied).Obeys server (applied.flatMap Applied.commands) s := by
  induction applied generalizing s with
  | nil => exact .finished
  | cons one rest ih =>
    exact (obeys_updateShop one).andThen fun _ _ =>
      (obeys_deleteTask one.taskId).andThen fun _ after => ih after

/-- Requests are inserted one after another. -/
theorem obeys_insertTasks (requests : List NewTask) (s : σ) :
    (insertTasks requests).Obeys server (requests.map NewTask.command) s := by
  induction requests generalizing s with
  | nil => exact .finished
  | cons request rest ih =>
    have hrest (id : Int) (s : σ) : ((insertTasks rest).andThen fun ids =>
        .done (.ok (⟨id⟩ :: ids))).Obeys server (rest.map NewTask.command) s := by
      rw [← List.append_nil (rest.map _)]
      exact (ih s).andThen fun _ _ => .finished
    exact (obeys_insertTask request).andThen hrest

/-- The id that is read from the reply to an insertion is the one that it answers. -/
theorem insertedId?_of_ok {request : NewTask} {id : Int} (s : σ)
    (h : ((query (.insertTask request) (Row.single Row.id)).run server s).1 = .ok id) :
    ((query (.insertTask request) (Row.single Row.id)).exchanges server s).filterMap
      Exchange.insertedId? = [⟨id⟩] := by
  rw [query, run_send] at h
  rw [query, exchanges]
  generalize (server (.run (.insertTask request)) s).1 = reply at h ⊢
  cases reply with
  | answered rows affected =>
    have hread : Row.single Row.id rows = .ok id := h
    simp [Exchange.insertedId?, hread, exchanges, Except.toOption]
  | failed message => cases h

/-- The ids of inserted requests are those that were answered, in order. -/
theorem insertedIds_of_ok {requests : List NewTask} {ids : List TaskId} (s : σ)
    (h : ((insertTasks requests).run server s).1 = .ok ids) :
    ((insertTasks requests).exchanges server s).filterMap Exchange.insertedId? = ids := by
  induction requests generalizing s ids with
  | nil =>
    cases h
    rfl
  | cons request rest ih =>
    rw [insertTasks, run_andThen] at h
    rw [insertTasks, exchanges_andThen]
    rcases hfirst : (query (.insertTask request) (Row.single Row.id)).run server s with
      ⟨error | id, after⟩
    · rw [hfirst] at h
      cases h
    · simp only [hfirst, run_andThen, exchanges_andThen] at h ⊢
      rcases hrest : (insertTasks rest).run server after with ⟨error | ids', last⟩
      · rw [hrest] at h
        cases h
      · rw [hrest] at h
        cases h
        rw [List.filterMap_append, insertedId?_of_ok s (by rw [hfirst])]
        simp [exchanges, ih after (by rw [hrest])]

/-- A transaction that has begun goes along the script of its program to the commit, and is rolled back
if it fails. -/
theorem Obeys.commit (h : program.Obeys server script s) :
    ∃ talk undo, program.commit.exchanges server s = talk ++ undo ∧
      Follows (script ++ [.commit]) talk (error? (program.commit.run server s).1) ∧
      undo.map Prod.fst =
        (if error? (program.commit.run server s).1 = none then [] else [.rollback]) ∧
      ∀ a, (program.commit.run server s).1 = .ok a →
        (program.run server s).1 = .ok a ∧
          ∃ reply, talk = program.exchanges server s ++ [(.commit, reply)] := by
  unfold Obeys at h
  rw [run_commit, exchanges_commit]
  rcases hrun : program.run server s with ⟨error | a, after⟩
  · rw [hrun] at h
    exact ⟨_, _, rfl, h.append_of_error _, rfl, by simp⟩
  · rw [hrun] at h
    rcases hcommit : server .commit after with ⟨reply, last⟩
    simp only [hcommit]
    cases reply with
    | answered rows affected =>
      refine ⟨program.exchanges server s ++ [(.commit, .answered rows affected)], [],
        (List.append_nil _).symm, Follows.append h (.goOn rfl .finished), rfl, ?_⟩
      exact fun a' ha => ⟨ha, _, rfl⟩
    | failed message =>
      refine ⟨program.exchanges server s ++ [(.commit, .failed message)],
        [(.rollback, (server .rollback last).1)], ?_, Follows.append h (.stop rfl []), rfl, by simp⟩
      rw [List.append_assoc]
      rfl

/-- A transaction commits if there is no objection before, and is rolled back if it has begun and
fails. -/
theorem allOrNothing_transaction (hprogram : ∀ s, program.Obeys server script s)
    (hscript : .commit ∉ script) (s : σ) :
    ∃ talk undo, (transaction program).exchanges server s = talk ++ undo ∧
      AllOrNothing script talk undo (error? ((transaction program).run server s).1) ∧
      ∀ a, ((transaction program).run server s).1 = .ok a →
        ∃ begun first last, (program.run server begun).1 = .ok a ∧
          talk = (.begin, first) :: (program.exchanges server begun ++ [(.commit, last)]) := by
  rw [transaction, run_send, exchanges]
  rcases hbegin : server .begin s with ⟨reply, begun⟩
  cases reply with
  | failed message =>
    have hfollows : Follows (.begin :: script ++ [.commit]) [(.begin, .failed message)] _ :=
      .stop rfl _
    exact ⟨[(.begin, .failed message)], [], rfl, hfollows.allOrNothing hscript (by simp), nofun⟩
  | answered rows affected =>
    obtain ⟨talk, undo, hsaid, hfollows, hundo, hok⟩ := (hprogram begun).commit
    have hall : Follows (.begin :: script ++ [.commit]) ((.begin, .answered rows affected) :: talk) _ :=
      .goOn rfl hfollows
    refine ⟨_, undo, congrArg (_ :: ·) hsaid, hall.allOrNothing hscript ?_, fun a ha => ?_⟩
    · have hsome : talk ≠ [] := by
        rintro rfl
        exact absurd hfollows.eq_nil_of_nil (by simp)
      simpa [hsome] using hundo
    · obtain ⟨hrun, last, rfl⟩ := hok a ha
      exact ⟨begun, _, last, hrun, rfl⟩

/-- A single request gets a single id. -/
theorem exists_id_of_ok {request : NewTask} {ids : List TaskId} (s : σ)
    (h : ((insertTasks [request]).run server s).1 = .ok ids) : ∃ id, ids = [id] := by
  rw [insertTasks, run_andThen] at h
  rcases hfirst : (query (.insertTask request) (Row.single Row.id)).run server s with
    ⟨error | id, after⟩
  · rw [hfirst] at h
    cases h
  · rw [hfirst] at h
    exact ⟨⟨id⟩, (Except.ok.inj h).symm⟩

/-- Inserting one request is inserting a batch of it. -/
theorem insertOne_eq (request : NewTask) (s : σ) :
    (insertOne request).exchanges server s = (insertBatch [request]).exchanges server s ∧
      ((∃ id after, (insertBatch [request]).run server s = (.ok [id], after) ∧
          (insertOne request).run server s = (.ok id, after)) ∨
        ∃ error after, (insertBatch [request]).run server s = (.error error, after) ∧
          (insertOne request).run server s = (.error error, after)) := by
  rw [insertOne, exchanges_andThen, run_andThen]
  rcases hbatch : (insertBatch [request]).run server s with ⟨error | ids, after⟩
  · exact ⟨List.append_nil _, .inr ⟨error, after, rfl, rfl⟩⟩
  · obtain ⟨_, _, _, _, hok⟩ := allOrNothing_transaction (obeys_insertTasks [request])
      (by simp [NewTask.command]) s
    obtain ⟨begun, _, _, hrun, _⟩ := hok ids (congrArg Prod.fst hbatch)
    obtain ⟨id, rfl⟩ := exists_id_of_ok begun hrun
    exact ⟨List.append_nil _, .inl ⟨id, after, rfl, rfl⟩⟩

end Program

/-- Of the answers to a batch of validations only that to an update is objected to, if it finds no row. -/
theorem update_of_objection {applied : List Applied} {command : Command} {rows : List Row}
    {affected : Nat} {error : StoreError}
    (hcommand : command ∈ .begin :: applied.flatMap Applied.commands ++ [.commit])
    (hobjection : Exchange.objection? (command, .answered rows affected) = some error) :
    ∃ one ∈ applied, error = .shopNotFound one.shopId ∧ affected = 0 ∧
      command = .run (.updateShop one.coordinates one.validatedAt one.shopId) := by
  simp only [List.cons_append, List.mem_cons, List.mem_append, List.mem_flatMap, Applied.commands,
    List.not_mem_nil, or_false] at hcommand
  rcases hcommand with rfl | ⟨one, hone, rfl | rfl⟩ | rfl
  · cases hobjection
  · obtain ⟨hnone, herror⟩ := Option.ite_none_right_eq_some.mp hobjection
    exact ⟨one, hone, (Option.some.inj herror).symm, hnone, rfl⟩
  · cases hobjection
  · cases hobjection

/-- An objection to what an insertion answers is a fault of the database. -/
theorem storage_of_objection {requests : List NewTask} {command : Command} {reply : DatabaseReply}
    {error : StoreError} (hcommand : command ∈ .begin :: requests.map NewTask.command ++ [.commit])
    (hobjection : Exchange.objection? (command, reply) = some error) :
    ∃ cause, error = .storage cause := by
  cases reply with
  | failed message => exact ⟨_, (Option.some.inj hobjection).symm⟩
  | answered rows affected =>
    simp only [List.cons_append, List.mem_cons, List.mem_append, List.mem_map, NewTask.command,
      List.not_mem_nil, or_false] at hcommand
    rcases hcommand with rfl | ⟨request, -, rfl⟩ | rfl
    · cases hobjection
    · rcases rows with _ | ⟨row, rows⟩
      · exact ⟨_, (Option.some.inj hobjection).symm⟩
      · have hread : Row.single Row.id (row :: rows) = Row.required .first row.id := rfl
        simp only [Exchange.objection?, hread] at hobjection
        cases hid : row.id with
        | none =>
          rw [hid] at hobjection
          exact ⟨_, (Option.some.inj hobjection).symm⟩
        | some id =>
          rw [hid] at hobjection
          cases hobjection
    · cases hobjection

/-- Whatever the database replies, a batch sends the statements for its rows in order between the
beginning of a transaction and its commit, up to the first objection. The commit is sent if and only if
no reply before it was objected to, and the batch succeeds if and only if it is answered. Otherwise the
error is the objection to the last reply: for validations the report of the database, or the shop of the
first update that finds no row. What has begun and fails is rolled back. An insertion answers the ids
of the rows in order, and inserting one request is inserting a batch of it. -/
theorem batches_all_or_nothing {σ : Type} (server : Command → σ → DatabaseReply × σ) (s : σ) :
    (∀ applied, ∃ talk undo,
      (Program.ofOperation (.applyBatch applied)).exchanges server s = talk ++ undo ∧
      AllOrNothing (applied.flatMap Applied.commands) talk undo
        (Program.error? ((Program.ofOperation (.applyBatch applied)).run server s).1) ∧
      ∀ error, ((Program.ofOperation (.applyBatch applied)).run server s).1 = .error error →
        (∃ command message, talk.getLast? = some (command, .failed message) ∧
          error = .storage (.database message)) ∨
        ∃ one ∈ applied, ∃ rows, error = .shopNotFound one.shopId ∧ talk.getLast? =
          some (.run (.updateShop one.coordinates one.validatedAt one.shopId), .answered rows 0)) ∧
    (∀ requests, ∃ talk undo,
      (Program.ofOperation (.insertBatch requests)).exchanges server s = talk ++ undo ∧
      AllOrNothing (requests.map NewTask.command) talk undo
        (Program.error? ((Program.ofOperation (.insertBatch requests)).run server s).1) ∧
      (∀ ids, ((Program.ofOperation (.insertBatch requests)).run server s).1 = .ok ids ↔
        (∃ rows affected, (.commit, .answered rows affected) ∈ talk) ∧
          ids = talk.filterMap Exchange.insertedId?) ∧
      ∀ error, ((Program.ofOperation (.insertBatch requests)).run server s).1 = .error error →
        ∃ cause, error = .storage cause) ∧
    ∀ request,
      (Program.ofOperation (.insert request)).exchanges server s =
        (Program.ofOperation (.insertBatch [request])).exchanges server s ∧
      ((∃ id after, (Program.ofOperation (.insertBatch [request])).run server s = (.ok [id], after) ∧
          (Program.ofOperation (.insert request)).run server s = (.ok id, after)) ∨
        ∃ error after,
          (Program.ofOperation (.insertBatch [request])).run server s = (.error error, after) ∧
          (Program.ofOperation (.insert request)).run server s = (.error error, after)) := by
  refine ⟨fun applied => ?_, fun requests => ?_, fun request => Program.insertOne_eq request s⟩
  · obtain ⟨talk, undo, hsaid, hall, _⟩ := Program.allOrNothing_transaction
      (Program.obeys_applyAll applied) (by simp [Applied.commands]) s
    refine ⟨talk, undo, hsaid, hall, fun error herror => ?_⟩
    obtain ⟨⟨command, reply⟩, hlast, hcommand, hobjection⟩ := hall.exists_last herror
    cases reply with
    | failed message => exact .inl ⟨command, message, hlast, (Option.some.inj hobjection).symm⟩
    | answered rows affected =>
      obtain ⟨one, hone, rfl, rfl, rfl⟩ := update_of_objection hcommand hobjection
      exact .inr ⟨one, hone, rows, rfl, hlast⟩
  · obtain ⟨talk, undo, hsaid, hall, hok⟩ := Program.allOrNothing_transaction
      (Program.obeys_insertTasks requests) (by simp [NewTask.command]) s
    have hids (ids : List TaskId)
        (h : ((Program.ofOperation (.insertBatch requests)).run server s).1 = .ok ids) :
        talk.filterMap Exchange.insertedId? = ids := by
      obtain ⟨begun, first, last, hrun, rfl⟩ := hok ids h
      have hfirst : Exchange.insertedId? (.begin, first) = none := rfl
      have hlast : Exchange.insertedId? (.commit, last) = none := rfl
      rw [← Program.insertedIds_of_ok begun hrun, List.filterMap_cons_none hfirst]
      simp [hlast]
    refine ⟨talk, undo, hsaid, hall, fun ids => ⟨fun h => ?_, ?_⟩, fun error herror => ?_⟩
    · exact ⟨hall.succeeds_iff.mp (congrArg Program.error? h), (hids ids h).symm⟩
    · rintro ⟨hcommitted, rfl⟩
      have hnone := hall.succeeds_iff.mpr hcommitted
      cases hresult : ((Program.ofOperation (.insertBatch requests)).run server s).1 with
      | ok ids => rw [hids ids hresult]
      | error error => exact nomatch hnone.symm.trans (congrArg Program.error? hresult)
    · obtain ⟨⟨command, reply⟩, -, hcommand, hobjection⟩ := hall.exists_last herror
      exact storage_of_objection hcommand hobjection

end ShopValidation
