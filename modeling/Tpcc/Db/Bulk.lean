import Tpcc.Db.Insert
import Tpcc.Db.Pool

/-! `ExecuteBulk` with its statements and with what the server stores of them: on success the rows in
order, on any failure none of them. -/

namespace Tpcc.Db

open Lib ObSession

/-- A session's connection with the `INSERT` statements of the connection: those that the server
accepted, those whose rows the open transaction holds, and those whose rows a rollback does not
undo. -/
structure Server where
  link : Link
  executed : List Insert
  pending : List Insert
  durable : List Insert

namespace Server

/-- The statements whose rows are in the table. -/
def stored (s : Server) : List Insert := s.durable ++ s.pending

/-- `START TRANSACTION` commits a transaction that is open. -/
def startTransaction (s : Server) : Server :=
  { s with
    link := { s.link with backend := s.link.backend.startTransaction }
    durable := s.durable ++ s.pending
    pending := [] }

/-- An `INSERT` that the server accepts; without an open transaction its rows stay. -/
def insert (s : Server) (i : Insert) : Server :=
  { s with
    executed := s.executed ++ [i]
    pending := if s.link.backend.txnOpen then s.pending ++ [i] else s.pending
    durable := if s.link.backend.txnOpen then s.durable else s.durable ++ [i] }

/-- A statement that failed stores nothing; with a transaction that it ends go that one's rows. -/
def failed (s : Server) (stillOpen : Bool) : Server :=
  { s with
    link := { s.link with backend := s.link.backend.failed stillOpen }
    pending := if s.link.backend.txnOpen && stillOpen then s.pending else [] }

def rollback (s : Server) : Server :=
  { s with link := { s.link with backend := s.link.backend.rollback }, pending := [] }

def withInTxn (s : Server) (value : Bool) : Server :=
  { s with link := { s.link with inTxn := value } }

/-- A call to the server, with what it does when it succeeds. -/
def call (effect : Server → Server) : Reply → EStateM Failure Server Unit
  | .ok => modify effect
  | .error code stillOpen => do
    modify fun s => s.failed stillOpen
    throw (.db code)

/-- `CheckShutdown`. -/
def checkShutdown (shutdownFlag : Bool) : EStateM Failure Server Unit :=
  if shutdownFlag then throw (.runtime "session shutdown") else pure ()

/-- `EnsureTxn`. -/
def ensureTxn (start : Reply) : EStateM Failure Server Unit := do
  let s ← get
  if !s.link.inTxn then
    call startTransaction start
    modify fun s => s.withInTxn true

/-- `ResetTxnOnError`. -/
def resetTxnOnError : EStateM Failure Server Unit := do
  let s ← get
  if s.link.inTxn then
    modify rollback
    modify fun s => s.withInTxn false

/-- The `flush` of `ExecuteBulk`. -/
def flush (tableName : String) (columns : List String) (batch : List BulkRow) (reply : Reply) :
    EStateM Failure Server Unit :=
  if batch.isEmpty then pure ()
  else
    match Insert.build tableName columns batch with
    | .ok i => call (·.insert i) reply
    | .error e => throw e

/-- The writer's rows: `replies` answers the flushes in turn, and the result is the last batch with
the number of flushes before it. -/
def emitRows (tableName : String) (columns : List String) (replies : Nat → Reply) :
    Nat → List BulkRow → List BulkRow → EStateM Failure Server (Nat × List BulkRow)
  | flushed, batch, [] => pure (flushed, batch)
  | flushed, batch, row :: rows =>
    if (batch ++ [row]).length ≥ bulkBatchRows then do
      flush tableName columns (batch ++ [row]) (replies flushed)
      emitRows tableName columns replies (flushed + 1) [] rows
    else
      emitRows tableName columns replies flushed (batch ++ [row]) rows

/-- The writer's last action. -/
def finish : WriterEnd → EStateM Failure Server Unit
  | .returns => pure ()
  | .throws e => throw e

/-- The writer's call and the flush behind it. -/
def writeRows (tableName : String) (columns : List String) (rows : List BulkRow)
    (writerEnd : WriterEnd) (replies : Nat → Reply) : EStateM Failure Server Unit := do
  let emitted ← emitRows tableName columns replies 0 [] rows
  finish writerEnd
  flush tableName columns emitted.2 (replies emitted.1)

/-- The body of the `try` block of `ExecuteBulk`. -/
def bulkWork (shutdownFlag : Bool) (start : Reply) (tableName : String) (columns : List String)
    (rows : List BulkRow) (writerEnd : WriterEnd) (replies : Nat → Reply) :
    EStateM Failure Server Unit := do
  checkShutdown shutdownFlag
  ensureTxn start
  writeRows tableName columns rows writerEnd replies

/-- `ExecuteBulk`; what it throws is the exception of the future. -/
def executeBulk (shutdownFlag : Bool) (start : Reply) (tableName : String) (columns : List String)
    (rows : List BulkRow) (writerEnd : WriterEnd) (replies : Nat → Reply) :
    EStateM Failure Server Unit := do
  try
    bulkWork shutdownFlag start tableName columns rows writerEnd replies
  catch e =>
    resetTxnOnError
    throw e

section Work

variable {base : List Insert} {s : Server} {tableName : String} {columns : List String}

/-- Inside the transaction of a bulk insert, with the given statements stored for good. -/
structure Inside (base : List Insert) (s : Server) : Prop where
  inTxn : s.link.inTxn = true
  txnOpen : s.link.backend.txnOpen = true
  durable : s.durable = base

/-- After a failure: the server may have ended the transaction. -/
structure Broken (base : List Insert) (s : Server) : Prop where
  inTxn : s.link.inTxn = true
  durable : s.durable = base

theorem Inside.broken (hin : Inside base s) : Broken base s := ⟨hin.inTxn, hin.durable⟩

theorem Inside.insert (hin : Inside base s) (i : Insert) : Inside base (s.insert i) where
  inTxn := hin.inTxn
  txnOpen := hin.txnOpen
  durable := by simp [Server.insert, hin.txnOpen, hin.durable]

theorem Inside.failed (hin : Inside base s) (stillOpen : Bool) : Broken base (s.failed stillOpen) :=
  ⟨hin.inTxn, hin.durable⟩

/-- Statements that the server accepts one after the other. -/
def insertAll (s : Server) (inserts : List Insert) : Server := inserts.foldl Server.insert s

theorem Inside.insertAll (hin : Inside base s) (inserts : List Insert) :
    Inside base (s.insertAll inserts) ∧
      (s.insertAll inserts).executed = s.executed ++ inserts ∧
      (s.insertAll inserts).pending = s.pending ++ inserts := by
  induction inserts generalizing s with
  | nil => exact ⟨hin, (List.append_nil _).symm, (List.append_nil _).symm⟩
  | cons i inserts ih =>
    obtain ⟨hinside, hexecuted, hpending⟩ := ih (hin.insert i)
    refine ⟨hinside, hexecuted.trans ?_, hpending.trans ?_⟩
    · simp [Server.insert]
    · simp [Server.insert, hin.txnOpen]

/-- The rows of a batch have as many cells as there are columns, and the server accepts the
statement. -/
def Accepts (columns : List String) (batch : List BulkRow) (reply : Reply) : Prop :=
  (∀ row ∈ batch, row.length = columns.length) ∧ reply = .ok

theorem flush_nil (reply : Reply) : flush tableName columns [] reply s = .ok () s := rfl

theorem flush_ok {batch : List BulkRow} {reply : Reply} (hne : batch ≠ [])
    (haccepts : Accepts columns batch reply) :
    flush tableName columns batch reply s = .ok () (s.insert (insertOf tableName columns batch)) := by
  obtain ⟨hrows, rfl⟩ := haccepts
  rw [flush, if_neg (by simpa using hne), Insert.build_ok tableName hrows]
  rfl

theorem call_error (effect : Server → Server) (code : Int) (stillOpen : Bool) :
    call effect (.error code stillOpen) s = .error (.db code) (s.failed stillOpen) := rfl

theorem flush_error (hin : Inside base s) {batch : List BulkRow} {reply : Reply} (hne : batch ≠ [])
    (hrefused : ¬Accepts columns batch reply) :
    ∃ e s', flush tableName columns batch reply s = .error e s' ∧ Broken base s' := by
  rw [flush, if_neg (by simpa using hne)]
  by_cases hrows : ∀ row ∈ batch, row.length = columns.length
  · rw [Insert.build_ok tableName hrows]
    cases reply with
    | ok => exact absurd ⟨hrows, rfl⟩ hrefused
    | error code stillOpen => exact ⟨_, _, call_error _ _ _, hin.failed stillOpen⟩
  · rw [Insert.build_error tableName hrows]
    exact ⟨_, s, rfl, hin.broken⟩

/-- The batches from number `flushed` on are accepted. -/
def AllAccepted (columns : List String) (replies : Nat → Reply) (flushed : Nat)
    (batches : List (List BulkRow)) : Prop :=
  ∀ k batch, batches[k]? = some batch → Accepts columns batch (replies (flushed + k))

theorem allAccepted_cons {replies : Nat → Reply} {flushed : Nat} {batch : List BulkRow}
    {batches : List (List BulkRow)} :
    AllAccepted columns replies flushed (batch :: batches) ↔
      Accepts columns batch (replies flushed) ∧ AllAccepted columns replies (flushed + 1) batches := by
  constructor
  · intro hall
    refine ⟨hall 0 batch rfl, fun k b hb => ?_⟩
    have haccepts := hall (k + 1) b hb
    rwa [Nat.add_comm k 1, ← Nat.add_assoc] at haccepts
  · rintro ⟨hfirst, hrest⟩ k b hb
    cases k with
    | zero =>
      obtain rfl := Option.some.inj hb
      exact hfirst
    | succ k =>
      have haccepts := hrest k b hb
      rwa [Nat.add_assoc, Nat.add_comm 1 k] at haccepts

theorem allAccepted_nil {replies : Nat → Reply} {flushed : Nat} :
    AllAccepted columns replies flushed [] := fun _ _ hb => nomatch hb

theorem allAccepted_append {replies : Nat → Reply} {flushed : Nat}
    {batches batches' : List (List BulkRow)} :
    AllAccepted columns replies flushed (batches ++ batches') ↔
      AllAccepted columns replies flushed batches ∧
        AllAccepted columns replies (flushed + batches.length) batches' := by
  induction batches generalizing flushed with
  | nil => exact ⟨fun hall => ⟨allAccepted_nil, hall⟩, fun hall => hall.2⟩
  | cons batch batches ih =>
    rw [List.cons_append, allAccepted_cons, allAccepted_cons, ih, and_assoc, List.length_cons,
      Nat.add_assoc, Nat.add_comm 1]

/-- All the batches are accepted if the rows have the right length and the server accepts as many
statements as there are batches. -/
theorem allAccepted_iff {replies : Nat → Reply} {batches : List (List BulkRow)} :
    AllAccepted columns replies 0 batches ↔
      (∀ row ∈ batches.flatten, row.length = columns.length) ∧
        ∀ k < batches.length, replies k = .ok := by
  constructor
  · intro hall
    constructor
    · intro row hrow
      obtain ⟨batch, hbatch, hmem⟩ := List.mem_flatten.mp hrow
      obtain ⟨k, hk⟩ := List.mem_iff_getElem?.mp hbatch
      exact (hall k batch hk).1 row hmem
    · intro k hk
      have haccepts := hall k batches[k] (List.getElem?_eq_getElem hk)
      rw [Nat.zero_add] at haccepts
      exact haccepts.2
  · rintro ⟨hrows, hreplies⟩ k batch hbatch
    obtain ⟨hk, rfl⟩ := List.getElem?_eq_some_iff.mp hbatch
    rw [Nat.zero_add]
    exact ⟨fun row hrow => hrows row (List.mem_flatten.mpr ⟨_, List.getElem_mem hk, hrow⟩),
      hreplies k hk⟩

/-- The loop over the writer's rows when the server accepts the full batches. -/
theorem emitRows_ok {replies : Nat → Reply} {flushed : Nat} {batch rows : List BulkRow}
    (hall : AllAccepted columns replies flushed (splitRows batch rows).1) :
    emitRows tableName columns replies flushed batch rows s =
      .ok (flushed + (splitRows batch rows).1.length, (splitRows batch rows).2)
        (s.insertAll ((splitRows batch rows).1.map (insertOf tableName columns))) := by
  induction rows generalizing s flushed batch with
  | nil => rfl
  | cons row rows ih =>
    rw [splitRows] at hall ⊢
    rw [emitRows]
    split at hall
    · next hfull =>
      obtain ⟨hfirst, hrest⟩ := allAccepted_cons.mp hall
      rw [if_pos hfull, if_pos hfull, bind_of_ok (flush_ok (by simp) hfirst), ih hrest,
        List.length_cons, Nat.add_assoc, Nat.add_comm 1]
      rfl
    · next hroom =>
      rw [if_neg hroom, if_neg hroom]
      exact ih hall

theorem emitRows_error (hin : Inside base s) {replies : Nat → Reply} {flushed : Nat}
    {batch rows : List BulkRow}
    (hrefused : ¬AllAccepted columns replies flushed (splitRows batch rows).1) :
    ∃ e s', emitRows tableName columns replies flushed batch rows s = .error e s' ∧
      Broken base s' := by
  induction rows generalizing s flushed batch with
  | nil => exact absurd (fun k b hb => by simp [splitRows] at hb) hrefused
  | cons row rows ih =>
    rw [splitRows] at hrefused
    rw [emitRows]
    split at hrefused
    · next hfull =>
      rw [if_pos hfull]
      by_cases hfirst : Accepts columns (batch ++ [row]) (replies flushed)
      · rw [bind_of_ok (flush_ok (by simp) hfirst)]
        exact ih (hin.insert _) fun hrest => hrefused (allAccepted_cons.mpr ⟨hfirst, hrest⟩)
      · obtain ⟨e, s', hflush, hbroken⟩ :=
          @flush_error base s tableName columns hin _ _ (by simp) hfirst
        exact ⟨e, s', bind_of_error hflush, hbroken⟩
    · next hroom =>
      rw [if_neg hroom]
      exact ih hin hrefused

theorem finish_returns : finish .returns s = .ok () s := rfl

theorem finish_throws (e : Failure) : finish (.throws e) s = .error e s := rfl

/-- The rows when the server accepts all the batches. -/
theorem writeRows_ok {replies : Nat → Reply} {rows : List BulkRow}
    (hall : AllAccepted columns replies 0 (batchesOf rows)) :
    writeRows tableName columns rows .returns replies s =
      .ok () (s.insertAll ((batchesOf rows).map (insertOf tableName columns))) := by
  obtain ⟨hfull, hlast⟩ := allAccepted_append.mp hall
  refine (bind_of_ok (emitRows_ok hfull)).trans ((bind_of_ok finish_returns).trans ?_)
  unfold batchesOf
  split at hlast
  · next hempty =>
    rw [hempty, if_pos rfl, List.append_nil]
    exact flush_nil _
  · next hne =>
    rw [if_neg hne, flush_ok hne (allAccepted_cons.mp hlast).1, List.map_append, insertAll, insertAll,
      List.foldl_append]
    rfl

theorem writeRows_error (hin : Inside base s) {replies : Nat → Reply} {rows : List BulkRow}
    {writerEnd : WriterEnd}
    (hrefused : ¬(writerEnd = .returns ∧ AllAccepted columns replies 0 (batchesOf rows))) :
    ∃ e s', writeRows tableName columns rows writerEnd replies s = .error e s' ∧ Broken base s' := by
  by_cases hfull : AllAccepted columns replies 0 (splitRows [] rows).1
  · obtain ⟨hinside, -, -⟩ :=
      hin.insertAll ((splitRows [] rows).1.map (insertOf tableName columns))
    cases writerEnd with
    | throws e =>
      exact ⟨e, _, (bind_of_ok (emitRows_ok hfull)).trans (bind_of_error (finish_throws e)),
        hinside.broken⟩
    | returns =>
      have hne : (splitRows [] rows).2 ≠ [] := by
        intro hempty
        refine hrefused ⟨rfl, allAccepted_append.mpr ⟨hfull, ?_⟩⟩
        rw [if_pos hempty]
        exact allAccepted_nil
      have hlast : ¬Accepts columns (splitRows [] rows).2
          (replies (0 + (splitRows [] rows).1.length)) := by
        refine fun hlast => hrefused ⟨rfl, allAccepted_append.mpr ⟨hfull, ?_⟩⟩
        rw [if_neg hne]
        exact allAccepted_cons.mpr ⟨hlast, allAccepted_nil⟩
      obtain ⟨e, s', hflush, hbroken⟩ := flush_error hinside hne hlast
      exact ⟨e, s', (bind_of_ok (emitRows_ok hfull)).trans
        ((bind_of_ok finish_returns).trans hflush), hbroken⟩
  · obtain ⟨e, s', hemit, hbroken⟩ := @emitRows_error base s tableName columns hin _ _ _ _ hfull
    exact ⟨e, s', bind_of_error hemit, hbroken⟩

/-- The transaction that the rows go into. -/
theorem ensureTxn_ok {start : Reply} (hopen : s.link.inTxn = true → s.link.backend.txnOpen = true)
    (hstart : s.link.inTxn = true ∨ start = .ok) :
    ∃ s', ensureTxn start s = .ok () s' ∧ Inside s'.durable s' ∧ s'.stored = s.stored ∧
      s'.executed = s.executed := by
  by_cases hin : s.link.inTxn = true
  · refine ⟨s, ?_, ⟨hin, hopen hin, rfl⟩, rfl, rfl⟩
    refine (bind_of_ok rfl).trans ?_
    simp only [hin]
    rfl
  · obtain rfl := hstart.resolve_left hin
    refine ⟨s.startTransaction.withInTxn true, ?_, ⟨rfl, rfl, rfl⟩, List.append_nil _, rfl⟩
    refine (bind_of_ok rfl).trans ?_
    simp only [Bool.eq_false_iff.mpr hin]
    rfl

theorem ensureTxn_error {code : Int} {stillOpen : Bool} (hout : s.link.inTxn = false) :
    ensureTxn (.error code stillOpen) s = .error (.db code) (s.failed stillOpen) := by
  refine (bind_of_ok rfl).trans ?_
  simp only [hout]
  rfl

theorem resetTxnOnError_inTxn (hin : s.link.inTxn = true) :
    resetTxnOnError s = .ok () (s.rollback.withInTxn false) := by
  refine (bind_of_ok rfl).trans ?_
  simp only [hin]
  rfl

theorem resetTxnOnError_out (hout : s.link.inTxn = false) : resetTxnOnError s = .ok () s := by
  refine (bind_of_ok rfl).trans ?_
  simp only [hout]
  rfl

end Work

section Projection

variable {α β : Type} {tableName : String} {columns : List String}

/-- Without the stored statements, the first program does what the second one does. -/
def Projects (m : EStateM Failure Server α) (m' : EStateM Failure Link α) : Prop :=
  ∀ s, m' s.link =
    match m s with
    | .ok a t => .ok a t.link
    | .error e t => .error e t.link

theorem Projects.of_bind {m : EStateM Failure Server α} {m' : EStateM Failure Link α}
    {f : α → EStateM Failure Server β} {f' : α → EStateM Failure Link β} (hm : Projects m m')
    (hf : ∀ a, Projects (f a) (f' a)) : Projects (m >>= f) (m' >>= f') := by
  intro s
  have hfirst := hm s
  cases hrun : m s with
  | ok a t =>
    rw [hrun] at hfirst
    rw [bind_of_ok hrun, bind_of_ok hfirst]
    exact hf a t
  | error e t =>
    rw [hrun] at hfirst
    rw [bind_of_error hrun, bind_of_error hfirst]

theorem Projects.of_tryCatch {m : EStateM Failure Server α} {m' : EStateM Failure Link α}
    {g : Failure → EStateM Failure Server α} {g' : Failure → EStateM Failure Link α}
    (hm : Projects m m') (hg : ∀ e, Projects (g e) (g' e)) :
    Projects (tryCatch m g) (tryCatch m' g') := by
  intro s
  have hfirst := hm s
  cases hrun : m s with
  | ok a t =>
    rw [hrun] at hfirst
    rw [tryCatch_of_ok hrun, tryCatch_of_ok hfirst]
  | error e t =>
    rw [hrun] at hfirst
    rw [tryCatch_of_error hrun, tryCatch_of_error hfirst]
    exact hg e t

theorem call_projects {effect : Server → Server} {effect' : Backend → Backend}
    (h : ∀ s, (effect s).link = { s.link with backend := effect' s.link.backend }) (reply : Reply) :
    Projects (call effect reply) (Db.call effect' reply) := by
  intro s
  cases reply with
  | ok => exact congrArg (EStateM.Result.ok ()) (h s).symm
  | error code stillOpen => rfl

theorem checkShutdown_projects (shutdownFlag : Bool) :
    Projects (checkShutdown shutdownFlag) (ObSession.checkShutdown shutdownFlag) := by
  intro s
  cases shutdownFlag <;> rfl

theorem ensureTxn_projects (start : Reply) :
    Projects (ensureTxn start) (ObSession.ensureTxn start) := by
  rintro ⟨⟨inTxn, backend⟩, executed, pending, durable⟩
  cases inTxn with
  | true => rfl
  | false => cases start <;> rfl

theorem resetTxnOnError_projects : Projects resetTxnOnError ObSession.resetTxnOnError := by
  rintro ⟨⟨inTxn, backend⟩, executed, pending, durable⟩
  cases inTxn <;> rfl

theorem finish_projects (writerEnd : WriterEnd) : Projects (finish writerEnd) writerEnd.run := by
  intro s
  cases writerEnd <;> rfl

theorem flush_projects (batch : List BulkRow) (reply : Reply) :
    Projects (flush tableName columns batch reply) (ObSession.flush columns batch reply) := by
  unfold flush ObSession.flush
  split
  · exact fun _ => rfl
  · by_cases hrows : ∀ row ∈ batch, row.length = columns.length
    · rw [Insert.build_ok tableName hrows, if_pos (by simpa using hrows)]
      exact call_projects (fun _ => rfl) reply
    · rw [Insert.build_error tableName hrows, if_neg (by simpa using hrows)]
      exact fun _ => rfl

theorem emitRows_projects (replies : Nat → Reply) (flushed : Nat) (batch rows : List BulkRow) :
    Projects (emitRows tableName columns replies flushed batch rows)
      (ObSession.emitRows columns replies flushed batch rows) := by
  induction rows generalizing flushed batch with
  | nil => exact fun _ => rfl
  | cons row rows ih =>
    rw [emitRows, ObSession.emitRows]
    split
    · exact .of_bind (flush_projects _ _) fun _ => ih _ _
    · exact ih _ _

/-- Without the stored statements this is the `ExecuteBulk` of a session's connection. -/
theorem executeBulk_projects (shutdownFlag : Bool) (start : Reply) (rows : List BulkRow)
    (writerEnd : WriterEnd) (replies : Nat → Reply) :
    Projects (executeBulk shutdownFlag start tableName columns rows writerEnd replies)
      (ObSession.executeBulk shutdownFlag start columns rows writerEnd replies) := by
  refine .of_tryCatch ?_ fun e => .of_bind resetTxnOnError_projects fun _ _ => rfl
  refine .of_bind (checkShutdown_projects shutdownFlag) fun _ => ?_
  refine .of_bind (ensureTxn_projects start) fun _ => ?_
  refine .of_bind (emitRows_projects replies 0 [] rows) fun _ => ?_
  exact .of_bind (finish_projects writerEnd) fun _ => flush_projects _ _

end Projection

end Server

section Session

/-- A session that is in a transaction has one open on the server. -/
def Link.Opened (l : Link) : Prop := l.inTxn = true → l.backend.txnOpen = true

/-- A session in a transaction that is open on the server. -/
structure Link.Working (l : Link) : Prop where
  inTxn : l.inTxn = true
  txnOpen : l.backend.txnOpen = true

/-- No statement that the operation is given commits the transaction by itself. -/
def Operation.Ordinary : Operation → Prop
  | .execute _ effect _ => effect ≠ .commits
  | _ => True

/-- The sessions that the operations reach, from a new one on any connection. -/
inductive SessionReached : Link → Prop
  | new (backend : Backend) : SessionReached ⟨false, backend⟩
  | operate {l : Link} (reached : SessionReached l) (shutdownFlag : Bool) (op : Operation)
      (hop : op.Ordinary) : SessionReached (finalLink (op.run shutdownFlag) l)

theorem ensureTxn_working (start : Reply) :
    Triple Link.Opened (ensureTxn start) (fun _ => Link.Working) (fun _ _ => True) := by
  rintro ⟨inTxn, backend⟩ hopened
  cases inTxn with
  | true => exact ⟨rfl, hopened rfl⟩
  | false =>
    cases start with
    | ok => exact ⟨rfl, rfl⟩
    | error code stillOpen => trivial

theorem statement_working {effect : TxnEffect} (heffect : effect ≠ .commits) (reply : Reply) :
    Triple Link.Working (call (·.statement effect) reply) (fun _ => Link.Working)
      (fun _ _ => True) := by
  rintro l hworking
  cases reply with
  | error code stillOpen => trivial
  | ok =>
    cases effect with
    | none => exact hworking
    | commits => exact absurd rfl heffect
    | begins => exact ⟨hworking.inTxn, rfl⟩

/-- The `catch` of the operations that roll back leaves the session outside a transaction. -/
theorem reset_and_throw_out (e : Failure) :
    Triple (fun _ => True) (do resetTxnOnError; throw e : EStateM Failure Link Unit)
      (fun _ => Link.Opened) (fun _ => Link.Opened) := by
  rintro ⟨inTxn, backend⟩ -
  cases inTxn with
  | true => exact fun hflag => nomatch hflag
  | false => exact fun hflag => nomatch hflag

/-- An operation whose work ends in an open transaction, and whose `catch` rolls back. -/
theorem opened_of_work {work : EStateM Failure Link Unit}
    (hwork : Triple Link.Opened work (fun _ => Link.Working) (fun _ _ => True)) :
    Triple Link.Opened (tryCatch work fun e => do resetTxnOnError; throw e) (fun _ => Link.Opened)
      (fun _ => Link.Opened) :=
  Triple.of_tryCatch (hwork.conseq (fun _ h => h) (fun _ _ h _ => h.txnOpen) fun _ _ h => h)
    reset_and_throw_out

theorem flush_working (columns : List String) (batch : List BulkRow) (reply : Reply) :
    Triple Link.Working (flush columns batch reply) (fun _ => Link.Working) (fun _ _ => True) := by
  unfold flush
  refine Triple.of_ite (fun _ => Triple.of_pure fun _ h => h) fun _ => ?_
  exact Triple.of_ite (fun _ => statement_working (by decide) reply) fun _ =>
    Triple.of_throw fun _ _ => trivial

theorem emitRows_working (columns : List String) (replies : Nat → Reply) (flushed : Nat)
    (batch rows : List BulkRow) :
    Triple Link.Working (emitRows columns replies flushed batch rows) (fun _ => Link.Working)
      (fun _ _ => True) := by
  induction rows generalizing flushed batch with
  | nil => exact Triple.of_pure fun _ h => h
  | cons row rows ih =>
    unfold emitRows
    refine Triple.of_ite (fun _ => ?_) fun _ => ih _ _
    exact Triple.of_bind (flush_working _ _ _) fun _ => ih _ _

theorem checkShutdown_opened (shutdownFlag : Bool) :
    Triple Link.Opened (checkShutdown shutdownFlag) (fun _ => Link.Opened) (fun _ _ => True) := by
  unfold checkShutdown
  exact Triple.of_ite (fun _ => Triple.of_throw fun _ _ => trivial) fun _ =>
    Triple.of_pure fun _ h => h

theorem run_opened (shutdownFlag : Bool) {op : Operation} (hop : op.Ordinary) :
    Triple Link.Opened (op.run shutdownFlag) (fun _ => Link.Opened) (fun _ => Link.Opened) := by
  cases op with
  | execute start effect reply =>
    refine opened_of_work ?_
    refine Triple.of_bind (checkShutdown_opened shutdownFlag) fun _ => ?_
    exact Triple.of_bind (ensureTxn_working start) fun _ => statement_working hop reply
  | executeBulk start columns rows writerEnd replies =>
    refine opened_of_work ?_
    refine Triple.of_bind (checkShutdown_opened shutdownFlag) fun _ => ?_
    refine Triple.of_bind (ensureTxn_working start) fun _ => ?_
    refine Triple.of_bind (emitRows_working columns replies 0 [] rows) fun _ => ?_
    refine Triple.of_bind (Q := fun _ => Link.Working) ?_ fun _ => flush_working _ _ _
    cases writerEnd with
    | returns => exact Triple.of_pure fun _ h => h
    | throws e => exact Triple.of_throw fun _ _ => trivial
  | commit reply =>
    rintro ⟨inTxn, backend⟩ hopened
    cases shutdownFlag <;> cases inTxn <;> cases reply <;> exact fun hflag => nomatch hflag
  | rollback =>
    rintro ⟨inTxn, backend⟩ -
    cases inTxn <;> exact fun hflag => nomatch hflag
  | executeNonTx effect reply =>
    rintro ⟨inTxn, backend⟩ -
    cases inTxn <;> cases reply <;> exact fun hflag => nomatch hflag

theorem SessionReached.opened {l : Link} (reached : SessionReached l) : l.Opened := by
  induction reached with
  | new backend => exact fun hflag => nomatch hflag
  | @operate l _ shutdownFlag op hop ih =>
    have hrun := run_opened shutdownFlag hop l ih
    rw [finalLink]
    cases hresult : op.run shutdownFlag l with
    | ok u l' =>
      rw [hresult] at hrun
      exact hrun
    | error e l' =>
      rw [hresult] at hrun
      exact hrun

end Session

namespace Server

section Bulk

variable {shutdownFlag : Bool} {start : Reply} {tableName : String} {columns : List String}
  {rows : List BulkRow} {writerEnd : WriterEnd} {replies : Nat → Reply} {s : Server}

/-- Every row has as many cells as there are columns, the server accepts every statement, and neither
the shutdown flag nor the writer ends the call. -/
structure BulkAccepted (shutdownFlag : Bool) (start : Reply) (columns : List String)
    (rows : List BulkRow) (writerEnd : WriterEnd) (replies : Nat → Reply) (l : Link) : Prop where
  notShutdown : shutdownFlag = false
  started : l.inTxn = true ∨ start = .ok
  returns : writerEnd = .returns
  cells : ∀ row ∈ rows, row.length = columns.length
  replies : ∀ k < (batchesOf rows).length, replies k = .ok

/-- Nothing of a bulk insert is left: what is stored was stored before, and the session is outside a
transaction, also on the server if it knew whether it was in one. -/
structure Undone (s s' : Server) : Prop where
  stored : s'.stored.Sublist s.stored
  inTxn : s'.link.inTxn = false
  txnOpen : s.link.backend.txnOpen = s.link.inTxn → s'.link.backend.txnOpen = false

/-- The `catch` block undoes a failed call. -/
theorem executeBulk_of_error {e : Failure} {t : Server}
    (hwork : bulkWork shutdownFlag start tableName columns rows writerEnd replies s = .error e t)
    (hdurable : t.durable.Sublist s.stored) (hout : t.link.inTxn = false → Undone s t) :
    ∃ s', executeBulk shutdownFlag start tableName columns rows writerEnd replies s = .error e s' ∧
      Undone s s' := by
  cases hin : t.link.inTxn with
  | true =>
    refine ⟨_, (tryCatch_of_error hwork).trans (bind_of_ok (resetTxnOnError_inTxn hin)), ?_⟩
    refine ⟨?_, rfl, fun _ => rfl⟩
    change (t.durable ++ []).Sublist s.stored
    rwa [List.append_nil]
  | false =>
    exact ⟨t, (tryCatch_of_error hwork).trans (bind_of_ok (resetTxnOnError_out hin)), hout hin⟩

theorem checkShutdown_ok : checkShutdown false s = .ok () s := rfl

theorem executeBulk_accepted (hopened : s.link.Opened)
    (haccepted : BulkAccepted shutdownFlag start columns rows writerEnd replies s.link) :
    ∃ s', executeBulk shutdownFlag start tableName columns rows writerEnd replies s = .ok () s' ∧
      s'.executed = s.executed ++ (batchesOf rows).map (insertOf tableName columns) ∧
      s'.stored = s.stored ++ (batchesOf rows).map (insertOf tableName columns) ∧
      s'.link.inTxn = true := by
  obtain ⟨rfl, hstart, rfl, hcells, hreplies⟩ := haccepted
  obtain ⟨s₁, hensure, hinside, hstored, hexecuted⟩ := ensureTxn_ok hopened hstart
  have hall : AllAccepted columns replies 0 (batchesOf rows) := by
    refine allAccepted_iff.mpr ⟨?_, hreplies⟩
    rwa [(batchesOf_spec rows).1]
  obtain ⟨hafter, hexecutedAll, hpending⟩ :=
    hinside.insertAll ((batchesOf rows).map (insertOf tableName columns))
  refine ⟨_, tryCatch_of_ok ((bind_of_ok checkShutdown_ok).trans ((bind_of_ok hensure).trans
    (writeRows_ok hall))), ?_, ?_, hafter.inTxn⟩
  · rw [hexecutedAll, hexecuted]
  · rw [stored, hpending, hafter.durable, ← List.append_assoc, ← hstored, stored]

theorem executeBulk_refused (hopened : s.link.Opened)
    (hrefused : ¬BulkAccepted shutdownFlag start columns rows writerEnd replies s.link) :
    ∃ e s', executeBulk shutdownFlag start tableName columns rows writerEnd replies s = .error e s' ∧
      Undone s s' := by
  have hdurable : s.durable.Sublist s.stored := List.sublist_append_left _ _
  cases shutdownFlag with
  | true =>
    refine ⟨_, executeBulk_of_error (bind_of_error rfl) hdurable fun hout => ?_⟩
    exact ⟨List.Sublist.refl _, hout, fun hmirrors => hmirrors.trans hout⟩
  | false =>
    by_cases hstart : s.link.inTxn = true ∨ start = .ok
    · obtain ⟨s₁, hensure, hinside, hstored, -⟩ := ensureTxn_ok hopened hstart
      have hrows : ¬(writerEnd = .returns ∧ AllAccepted columns replies 0 (batchesOf rows)) := by
        rintro ⟨hreturns, hall⟩
        obtain ⟨hcells, hreplies⟩ := allAccepted_iff.mp hall
        rw [(batchesOf_spec rows).1] at hcells
        exact hrefused ⟨rfl, hstart, hreturns, hcells, hreplies⟩
      obtain ⟨e, t, hwrite, hbroken⟩ := @writeRows_error s₁.durable s₁ tableName columns hinside _ _ _ hrows
      refine ⟨e, executeBulk_of_error ((bind_of_ok checkShutdown_ok).trans
        ((bind_of_ok hensure).trans hwrite)) ?_ fun hout => ?_⟩
      · rw [hbroken.durable, ← hstored]
        exact List.sublist_append_left _ _
      · rw [hbroken.inTxn] at hout
        cases hout
    · obtain ⟨hin, hnotOk⟩ := not_or.mp hstart
      have hout := Bool.eq_false_iff.mpr hin
      cases start with
      | ok => exact absurd rfl hnotOk
      | error code stillOpen =>
        refine ⟨_, executeBulk_of_error ((bind_of_ok checkShutdown_ok).trans
          (bind_of_error (ensureTxn_error hout))) hdurable fun _ => ⟨?_, hout, fun hmirrors => ?_⟩⟩
        · refine List.Sublist.append_left ?_ _
          dsimp only [failed]
          split
          · exact List.Sublist.refl _
          · exact List.nil_sublist _
        · simp [failed, Backend.failed, hmirrors, hout]

/-- `ExecuteBulk` sends the rows in order, in batches of at most 200 that are not empty, each as an
`INSERT` with one group for each row and one placeholder for each parameter, and the parameters are
the cells row by row.  If a row has another length or a statement fails, the future gets an exception,
none of the rows remains and the session is outside a transaction. -/
theorem executeBulk_all_or_nothing (shutdownFlag : Bool) (start : Reply) (tableName : String)
    (columns : List String) (rows : List BulkRow) (writerEnd : WriterEnd) (replies : Nat → Reply)
    {s : Server} (reached : SessionReached s.link) :
    (batchesOf rows).flatten = rows ∧
      (∀ batch ∈ batchesOf rows, batch ≠ [] ∧ batch.length ≤ 200) ∧
      (∀ batch : List BulkRow,
        (insertOf tableName columns batch).sql = insertHead tableName columns ++ valuesText batch ∧
        (valuesText batch).toList.count '(' = batch.length ∧
        (valuesText batch).toList.count ')' = batch.length ∧
        (valuesText batch).toList.count '?' = (insertOf tableName columns batch).params.length ∧
        (insertOf tableName columns batch).params = batch.flatten.map Insert.cellValue) ∧
      (BulkAccepted shutdownFlag start columns rows writerEnd replies s.link →
        ∃ s', executeBulk shutdownFlag start tableName columns rows writerEnd replies s = .ok () s' ∧
          s'.executed = s.executed ++ (batchesOf rows).map (insertOf tableName columns) ∧
          s'.stored = s.stored ++ (batchesOf rows).map (insertOf tableName columns) ∧
          s'.link.inTxn = true) ∧
      (¬BulkAccepted shutdownFlag start columns rows writerEnd replies s.link →
        ∃ e s', executeBulk shutdownFlag start tableName columns rows writerEnd replies s =
            .error e s' ∧ Undone s s') := by
  obtain ⟨hflatten, hbatches⟩ := batchesOf_spec rows
  refine ⟨hflatten, hbatches, fun batch => ?_, executeBulk_accepted reached.opened,
    executeBulk_refused reached.opened⟩
  obtain ⟨hsql, hopening, hclosing, hplaceholders⟩ := insertOf_text tableName columns batch
  exact ⟨hsql, hopening, hclosing, hplaceholders, rfl⟩

/-- Two rows with an absent cell; the second one is too short. -/
theorem executeBulk_all_or_nothing_short :
    ∃ e s', executeBulk false .ok "item" ["i_id", "i_name"] [[some "1", none], [some "2"]] .returns
        (fun _ => .ok) ⟨⟨false, .connected⟩, [], [], []⟩ = .error e s' ∧
      Undone ⟨⟨false, .connected⟩, [], [], []⟩ s' :=
  (executeBulk_all_or_nothing false .ok "item" ["i_id", "i_name"] [[some "1", none], [some "2"]]
    .returns (fun _ => .ok) (.new .connected)).2.2.2.2
    fun haccepted => absurd (haccepted.cells [some "2"] (by simp)) (by decide)

end Bulk

end Server

end Tpcc.Db
