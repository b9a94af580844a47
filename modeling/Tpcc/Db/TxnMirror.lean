import Tpcc.Db.Pool

/-! When a session's `inTxn_` mirrors the server.  It does, and no connection goes back to the pool
with an open transaction, as long as no `Commit` of an open transaction meets the raised shutdown
flag or a failed `COMMIT` that leaves the transaction open. -/

namespace Tpcc.Db

open Lib

/-- A session that is not in a transaction has none open on the server, and none was committed
behind its back. -/
structure Link.Mirrors (l : Link) : Prop where
  closed : l.inTxn = false → l.backend.txnOpen = false
  none_implicit : l.backend.implicitCommits = 0

/-- A mirroring link inside a transaction. -/
structure Link.InTxn (l : Link) : Prop where
  flag : l.inTxn = true
  none_implicit : l.backend.implicitCommits = 0

/-- A mirroring link outside a transaction. -/
structure Link.Idle (l : Link) : Prop where
  flag : l.inTxn = false
  closed : l.backend.txnOpen = false
  none_implicit : l.backend.implicitCommits = 0

namespace Link

variable {l : Link}

theorem InTxn.mirrors (h : l.InTxn) : l.Mirrors where
  closed hflag := by rw [h.flag] at hflag; cases hflag
  none_implicit := h.none_implicit

theorem Idle.mirrors (h : l.Idle) : l.Mirrors := ⟨fun _ => h.closed, h.none_implicit⟩

theorem Mirrors.inTxn (h : l.Mirrors) (hflag : l.inTxn = true) : l.InTxn :=
  ⟨hflag, h.none_implicit⟩

theorem Mirrors.idle (h : l.Mirrors) (hflag : l.inTxn = false) : l.Idle :=
  ⟨hflag, h.closed hflag, h.none_implicit⟩

end Link

namespace ObSession

open Link

theorem checkShutdown_spec (shutdownFlag : Bool) (P : Link → Prop) :
    Triple P (checkShutdown shutdownFlag) (fun _ l => P l ∧ shutdownFlag = false)
      (fun _ l => P l ∧ shutdownFlag = true) := by
  unfold checkShutdown
  refine Triple.of_ite (fun hflag => Triple.of_throw fun _ h => ⟨h, hflag⟩) (fun hflag => ?_)
  exact Triple.of_pure fun _ h => ⟨h, by simpa using hflag⟩

theorem startTransaction_spec (start : Reply) :
    Triple Idle (call Backend.startTransaction start)
      (fun _ l => l.backend.txnOpen = true ∧ l.backend.implicitCommits = 0) (fun _ => Idle) := by
  cases start with
  | ok =>
    refine Triple.of_modify fun l h => ⟨rfl, ?_⟩
    simp [Backend.startTransaction, h.closed, h.none_implicit]
  | error code stillOpen =>
    refine Triple.of_bind (Q := fun _ => Idle) (Triple.of_modify fun l h => ?_)
      fun _ => Triple.of_throw fun _ h => h
    exact ⟨h.flag, by simp [Backend.failed, h.closed], h.none_implicit⟩

theorem ensureTxn_spec (start : Reply) :
    Triple Mirrors (ensureTxn start) (fun _ => InTxn) (fun _ => Idle) := by
  unfold ensureTxn
  refine Triple.of_bind (Q := fun l' l => l'.inTxn = l.inTxn ∧ l.Mirrors)
    (Triple.of_get fun l h => ⟨rfl, h⟩) fun l' => ?_
  refine Triple.of_ite (fun hout => ?_) (fun hin => ?_)
  · refine Triple.of_bind ((startTransaction_spec start).conseq ?_ (fun _ _ h => h)
      fun _ _ h => h) fun _ => Triple.of_modify fun l h => ⟨rfl, h.2⟩
    rintro l ⟨hflag, h⟩
    exact h.idle (by simpa [hflag] using hout)
  · refine Triple.of_pure ?_
    rintro l ⟨hflag, h⟩
    exact h.inTxn (by simpa [hflag] using hin)

theorem statement_spec (effect : TxnEffect) (reply : Reply) :
    Triple InTxn (call (·.statement effect) reply) (fun _ => InTxn) (fun _ => InTxn) := by
  cases reply with
  | ok =>
    refine Triple.of_modify fun l h => ⟨h.flag, ?_⟩
    cases effect <;> simpa [Backend.statement, Backend.commit] using h.none_implicit
  | error code stillOpen =>
    exact Triple.of_bind (Triple.of_modify fun l h => ⟨h.flag, h.none_implicit⟩)
      fun _ => Triple.of_throw fun _ h => h

theorem rollbackIfInTxn_spec :
    Triple Mirrors rollbackIfInTxn (fun _ => Idle) (fun _ _ => False) := by
  unfold rollbackIfInTxn
  refine Triple.of_bind (Q := fun l' l => l'.inTxn = l.inTxn ∧ l.Mirrors)
    (Triple.of_get fun l h => ⟨rfl, h⟩) fun l' => ?_
  refine Triple.of_ite (fun _ => ?_) (fun hout => ?_)
  · refine Triple.of_bind
      (Q := fun _ l => l.backend.txnOpen = false ∧ l.backend.implicitCommits = 0)
      (Triple.of_modify fun l h => ⟨rfl, h.2.none_implicit⟩)
      fun _ => Triple.of_modify fun l h => ⟨rfl, h.1, h.2⟩
  · refine Triple.of_pure ?_
    rintro l ⟨hflag, h⟩
    exact h.idle (by simpa [hflag] using hout)

/-- The `catch` of the operations that roll back. -/
theorem reset_and_throw_spec (e : Failure) :
    Triple Mirrors (do resetTxnOnError; throw e : EStateM Failure Link Unit) (fun _ => Mirrors)
      (fun _ => Mirrors) :=
  Triple.of_bind
    (rollbackIfInTxn_spec.conseq (fun _ h => h) (fun _ _ h => h) fun _ _ h => h.elim)
    fun _ => Triple.of_throw fun _ h => h.mirrors

theorem execute_spec (shutdownFlag : Bool) (start : Reply) (effect : TxnEffect) (reply : Reply) :
    Triple Mirrors (execute shutdownFlag start effect reply) (fun _ => Mirrors)
      (fun _ => Mirrors) := by
  refine Triple.of_tryCatch (E := fun _ => Mirrors) ?_ reset_and_throw_spec
  refine Triple.of_bind ((checkShutdown_spec shutdownFlag Mirrors).conseq (fun _ h => h)
    (fun _ _ h => h) fun _ _ h => h.1) fun _ => ?_
  refine Triple.of_bind ((ensureTxn_spec start).conseq (fun _ h => h.1) (fun _ _ h => h)
    fun _ _ h => h.mirrors) fun _ => ?_
  exact (statement_spec effect reply).conseq (fun _ h => h) (fun _ _ h => h.mirrors)
    fun _ _ h => h.mirrors

theorem flush_spec (columns : List String) (batch : List BulkRow) (reply : Reply) :
    Triple InTxn (flush columns batch reply) (fun _ => InTxn) (fun _ => InTxn) := by
  unfold flush
  refine Triple.of_ite (fun _ => Triple.of_pure fun _ h => h) fun _ => ?_
  exact Triple.of_ite (fun _ => statement_spec .none reply) fun _ => Triple.of_throw fun _ h => h

theorem emitRows_spec (columns : List String) (replies : Nat → Reply) (flushed : Nat)
    (batch rows : List BulkRow) :
    Triple InTxn (emitRows columns replies flushed batch rows) (fun _ => InTxn)
      (fun _ => InTxn) := by
  induction rows generalizing flushed batch with
  | nil => exact Triple.of_pure fun _ h => h
  | cons row rows ih =>
    refine Triple.of_ite (fun _ => ?_) fun _ => ih flushed (batch ++ [row])
    exact Triple.of_bind (flush_spec columns (batch ++ [row]) (replies flushed))
      fun _ => ih (flushed + 1) []

theorem executeBulk_spec (shutdownFlag : Bool) (start : Reply) (columns : List String)
    (rows : List BulkRow) (writerEnd : WriterEnd) (replies : Nat → Reply) :
    Triple Mirrors (executeBulk shutdownFlag start columns rows writerEnd replies)
      (fun _ => Mirrors) (fun _ => Mirrors) := by
  refine Triple.of_tryCatch (E := fun _ => Mirrors) ?_ reset_and_throw_spec
  refine Triple.of_bind ((checkShutdown_spec shutdownFlag Mirrors).conseq (fun _ h => h)
    (fun _ _ h => h) fun _ _ h => h.1) fun _ => ?_
  refine Triple.of_bind ((ensureTxn_spec start).conseq (fun _ h => h.1) (fun _ _ h => h)
    fun _ _ h => h.mirrors) fun _ => ?_
  refine Triple.of_bind ((emitRows_spec columns replies 0 [] rows).conseq (fun _ h => h)
    (fun _ _ h => h) fun _ _ h => h.mirrors) fun last => ?_
  have hend : Triple InTxn writerEnd.run (fun _ => InTxn) (fun _ => Mirrors) := by
    cases writerEnd with
    | returns => exact Triple.of_pure fun _ h => h
    | throws e => exact Triple.of_throw fun _ h => h.mirrors
  refine Triple.of_bind hend fun _ => ?_
  exact (flush_spec columns last.2 (replies last.1)).conseq (fun _ h => h)
    (fun _ _ h => h.mirrors) fun _ _ h => h.mirrors

theorem rollback_spec : Triple Mirrors rollback (fun _ => Mirrors) (fun _ => Mirrors) := by
  refine Triple.of_tryCatch (E := fun _ _ => False) ?_ fun _ _ h => h.elim
  exact rollbackIfInTxn_spec.conseq (fun _ h => h) (fun _ _ h => h.mirrors) fun _ _ h => h

theorem executeNonTx_spec (effect : TxnEffect) (reply : Reply)
    (hsafe : ¬(effect = .begins ∧ reply = .ok)) :
    Triple Mirrors (executeNonTx effect reply) (fun _ => Mirrors) (fun _ => Mirrors) := by
  refine Triple.of_bind
    (rollbackIfInTxn_spec.conseq (fun _ h => h) (fun _ _ h => h) fun _ _ h => h.elim) fun _ => ?_
  cases reply with
  | ok =>
    refine Triple.of_modify fun l h => Idle.mirrors ⟨h.flag, ?_, ?_⟩
    · cases effect with
      | none => exact h.closed
      | commits => rfl
      | begins => exact absurd ⟨rfl, rfl⟩ hsafe
    · cases effect <;> simpa [Backend.statement, Backend.commit] using h.none_implicit
  | error code stillOpen =>
    refine Triple.of_bind (Q := fun _ => Idle) (Triple.of_modify fun l h => ?_)
      fun _ => Triple.of_throw fun _ h => h.mirrors
    exact ⟨h.flag, by simp [Backend.failed, h.closed], h.none_implicit⟩

end ObSession

/-- The condition on an operation: a `Commit` inside a transaction does not meet the raised flag or
a failed `COMMIT` that leaves the transaction open, and `ExecuteNonTx` is not used to begin a
transaction. -/
def Operation.Safe (shutdownFlag inTxn : Bool) : Operation → Prop
  | .commit reply =>
    inTxn = true → shutdownFlag = false ∧ ∀ code, reply ≠ .error code true
  | .executeNonTx effect reply => ¬(effect = .begins ∧ reply = .ok)
  | _ => True

namespace ObSession

open Link

/-- A link whose server side has no transaction, whatever the flag says. -/
structure Closed (l : Link) : Prop where
  closed : l.backend.txnOpen = false
  none_implicit : l.backend.implicitCommits = 0

theorem commitCall_spec (reply : Reply) (hreply : ∀ code, reply ≠ .error code true) :
    Triple InTxn (call Backend.commit reply) (fun _ => Closed) (fun _ => Closed) := by
  cases reply with
  | ok => exact Triple.of_modify fun l h => ⟨rfl, h.none_implicit⟩
  | error code stillOpen =>
    refine Triple.of_bind (Q := fun _ => Closed) (Triple.of_modify fun l h => ⟨?_, h.none_implicit⟩)
      fun _ => Triple.of_throw fun _ h => h
    cases stillOpen with
    | false => simp [Backend.failed]
    | true => exact absurd rfl (hreply code)

theorem setInTxn_false_spec {E : Failure → Link → Prop} :
    Triple Closed (setInTxn false) (fun _ => Mirrors) E :=
  Triple.of_modify fun _ h => ⟨fun _ => h.closed, h.none_implicit⟩

theorem commit_spec (shutdownFlag : Bool) (reply : Reply) :
    Triple
      (fun l => l.Mirrors ∧ (Operation.commit reply).Safe shutdownFlag l.inTxn)
      (commit shutdownFlag reply) (fun _ => Mirrors) (fun _ => Mirrors) := by
  refine Triple.of_tryCatch (E := fun _ => Closed) ?_ ?_
  · refine Triple.of_bind ((checkShutdown_spec shutdownFlag _).conseq (fun _ h => h)
      (fun _ _ h => h.1) ?_) fun _ => ?_
    · rintro e l ⟨⟨h, hsafe⟩, hflag⟩
      cases hin : l.inTxn with
      | false => exact ⟨h.closed hin, h.none_implicit⟩
      | true =>
        rw [hflag] at hsafe
        cases (hsafe hin).1
    · refine Triple.of_bind (Q := fun l' l => l' = l ∧ l.Mirrors ∧
        (Operation.commit reply).Safe shutdownFlag l.inTxn)
        (Triple.of_get fun l h => ⟨rfl, h⟩) fun l' => ?_
      refine Triple.of_ite (fun hin l hl => ?_) fun hout => Triple.of_pure fun l h => h.2.1
      obtain ⟨rfl, h, hsafe⟩ := hl
      exact Triple.of_bind (commitCall_spec reply (hsafe hin).2) (fun _ => setInTxn_false_spec) l'
        (h.inTxn hin)
  · exact fun e => Triple.of_bind setInTxn_false_spec fun _ => Triple.of_throw fun _ h => h

end ObSession

theorem Operation.run_spec (shutdownFlag : Bool) (op : Operation) :
    Triple (fun l => l.Mirrors ∧ op.Safe shutdownFlag l.inTxn) (op.run shutdownFlag)
      (fun _ => Link.Mirrors) (fun _ => Link.Mirrors) := by
  cases op with
  | execute start effect reply =>
    exact (ObSession.execute_spec shutdownFlag start effect reply).conseq (fun _ h => h.1)
      (fun _ _ h => h) fun _ _ h => h
  | executeBulk start columns rows writerEnd replies =>
    exact (ObSession.executeBulk_spec shutdownFlag start columns rows writerEnd replies).conseq
      (fun _ h => h.1) (fun _ _ h => h) fun _ _ h => h
  | commit reply => exact ObSession.commit_spec shutdownFlag reply
  | rollback =>
    exact ObSession.rollback_spec.conseq (fun _ h => h.1) (fun _ _ h => h) fun _ _ h => h
  | executeNonTx effect reply =>
    intro l h
    exact ObSession.executeNonTx_spec effect reply h.2 l h.1

theorem finalLink_of_triple {m : EStateM Failure Link Unit} {P Q : Link → Prop}
    (h : Triple P m (fun _ => Q) (fun _ => Q)) {l : Link} (hl : P l) : Q (finalLink m l) := by
  unfold finalLink
  cases hrun : m l with
  | ok a l' => exact h.of_ok hl hrun
  | error e l' => exact h.of_error hl hrun

theorem release_idle {l : Link} (h : l.Mirrors) :
    (finalLink ObSession.releaseConnection l).Idle :=
  finalLink_of_triple
    (ObSession.rollbackIfInTxn_spec.conseq (fun _ h => h) (fun _ _ h => h) fun _ _ h => h.elim) h

namespace ObConnectionPool

variable {κ ι : Type}

/-- Every connection has at most one place: in the queue of free ones or with one user. -/
structure Owned (p : ObConnectionPool κ ι) : Prop where
  free_nodup : p.free.Nodup
  not_free : ∀ i c, (p.holder i).conn? = some c → c ∉ p.free
  holder_unique : ∀ i j c, (p.holder i).conn? = some c → (p.holder j).conn? = some c → i = j

/-- `inTxn_` mirrors the server on every session, and no connection outside a session has an open
transaction. -/
structure Mirrors (p : ObConnectionPool κ ι) : Prop where
  session : ∀ i c inTxn, p.holder i = .session c inTxn →
    inTxn = false → (p.backend c).txnOpen = false
  releasing : ∀ i c, p.holder i = .releasing c → (p.backend c).txnOpen = false
  free : ∀ c ∈ p.free, (p.backend c).txnOpen = false
  none_implicit : ∀ c, (p.backend c).implicitCommits = 0

/-- The condition on a step. -/
def SafeStep (p : ObConnectionPool κ ι) : Action ι → Prop
  | .operate i op => ∀ c inTxn, p.holder i = .session c inTxn → op.Safe p.shutdownFlag inTxn
  | _ => True

theorem Mirrors.link {p : ObConnectionPool κ ι} (h : p.Mirrors) {i : ι} {c : κ} {inTxn : Bool}
    (hi : p.holder i = .session c inTxn) : Link.Mirrors ⟨inTxn, p.backend c⟩ :=
  ⟨h.session i c inTxn hi, h.none_implicit c⟩

theorem new_owned {conns : List κ} (h : conns.Nodup) :
    (new conns : ObConnectionPool κ ι).Owned where
  free_nodup := h
  not_free := by
    intro i c hc
    cases hc
  holder_unique := by
    intro i j c hc
    cases hc

theorem new_mirrors (conns : List κ) : (new conns : ObConnectionPool κ ι).Mirrors where
  session := by
    intro i c inTxn hi
    cases hi
  releasing := by
    intro i c hi
    cases hi
  free := fun _ _ => rfl
  none_implicit := fun _ => rfl

variable [DecidableEq ι]

/-- Moving a user to another holder of the same connection, or of none, keeps every connection's
place unique. -/
theorem Owned.setHolder {p : ObConnectionPool κ ι} (h : p.Owned) {i : ι} {holder : Holder κ}
    (hconn : ∀ c, holder.conn? = some c → (p.holder i).conn? = some c) :
    (p.setHolder i holder).Owned := by
  have hsub : ∀ j c, ((p.setHolder i holder).holder j).conn? = some c →
      (p.holder j).conn? = some c := by
    intro j c hc
    by_cases hij : j = i
    · subst hij
      exact hconn c (by simpa [ObConnectionPool.setHolder] using hc)
    · simpa [ObConnectionPool.setHolder, hij] using hc
  exact ⟨h.free_nodup, fun j c hc => h.not_free j c (hsub j c hc),
    fun j k c hj hk => h.holder_unique j k c (hsub j c hj) (hsub k c hk)⟩

theorem Owned.acquire {p : ObConnectionPool κ ι} (h : p.Owned) {i : ι} {c : κ} {rest : List κ}
    (hi : p.holder i = .none) (hfree : p.free = c :: rest) :
    ({ p with
        free := rest
        checkedOut := p.checkedOut ++ [c]
        holder := Function.update p.holder i (.session c false) } :
      ObConnectionPool κ ι).Owned := by
  have hnodup := h.free_nodup
  rw [hfree, List.nodup_cons] at hnodup
  have hold : ∀ j c', j ≠ i → (p.holder j).conn? = some c' → c' ≠ c ∧ c' ∉ rest := by
    intro j c' _ hc'
    have hnot := h.not_free j c' hc'
    rw [hfree] at hnot
    simpa using hnot
  refine ⟨hnodup.2, ?_, ?_⟩
  · intro j c' hc'
    by_cases hji : j = i
    · subst hji
      obtain rfl : c = c' := by simpa [Holder.conn?] using hc'
      exact hnodup.1
    · exact (hold j c' hji (by simpa [hji] using hc')).2
  · intro j k c' hj hk
    by_cases hji : j = i <;> by_cases hki : k = i
    · rw [hji, hki]
    · subst hji
      obtain rfl : c = c' := by simpa [Holder.conn?] using hj
      exact absurd rfl (hold k c hki (by simpa [hki] using hk)).1
    · subst hki
      obtain rfl : c = c' := by simpa [Holder.conn?] using hk
      exact absurd rfl (hold j c hji (by simpa [hji] using hj)).1
    · exact h.holder_unique j k c' (by simpa [hji] using hj) (by simpa [hki] using hk)

theorem Owned.pushFree {p : ObConnectionPool κ ι} (h : p.Owned) {i : ι} {c : κ}
    (hi : p.holder i = .releasing c) (checkedOut : List κ) :
    ({ p.setHolder i .none with free := p.free ++ [c], checkedOut := checkedOut } :
      ObConnectionPool κ ι).Owned := by
  have hc : (p.holder i).conn? = some c := by rw [hi]; rfl
  have hsub : ∀ j c', (Function.update p.holder i .none j).conn? = some c' →
      j ≠ i ∧ (p.holder j).conn? = some c' := by
    intro j c' hc'
    by_cases hji : j = i
    · subst hji
      simp [Holder.conn?] at hc'
    · exact ⟨hji, by simpa [hji] using hc'⟩
  refine ⟨?_, ?_, ?_⟩
  · exact List.nodup_append.2 ⟨h.free_nodup, by simp, by
      rintro a ha b hb rfl
      rw [List.mem_singleton] at hb
      exact h.not_free i c hc (hb ▸ ha)⟩
  · intro j c' hc' hmem
    obtain ⟨hji, hj⟩ := hsub j c' hc'
    rw [List.mem_append, List.mem_singleton] at hmem
    rcases hmem with hmem | rfl
    · exact h.not_free j c' hj hmem
    · exact hji (h.holder_unique j i c' hj hc)
  · intro j k c' hj hk
    exact h.holder_unique j k c' (hsub j c' hj).2 (hsub k c' hk).2

variable [DecidableEq κ]

/-- A user's step on its own connection: the new holder says of the new server state what the
invariant asks, and nothing else changes. -/
theorem Mirrors.update {p : ObConnectionPool κ ι} (h : p.Mirrors) (hown : p.Owned) {i : ι} {c : κ}
    (hi : (p.holder i).conn? = some c) {holder : Holder κ} {b : Backend}
    (hconn : ∀ c', holder.conn? = some c' → c' = c)
    (hsession : ∀ inTxn, holder = .session c inTxn → inTxn = false → b.txnOpen = false)
    (hreleasing : holder = .releasing c → b.txnOpen = false) (hb : b.implicitCommits = 0) :
    ((p.setHolder i holder).setBackend c b).Mirrors := by
  have hother : ∀ j c', j ≠ i → (p.holder j).conn? = some c' → c' ≠ c := by
    rintro j c' hj hc' rfl
    exact hj (hown.holder_unique j i c' hc' hi)
  refine ⟨?_, ?_, ?_, ?_⟩
  · intro j c' inTxn hj hflag
    by_cases hji : j = i
    · subst hji
      have heq : holder = .session c' inTxn := by
        simpa [ObConnectionPool.setHolder, ObConnectionPool.setBackend] using hj
      obtain rfl : c' = c := hconn c' (by rw [heq]; rfl)
      simpa [ObConnectionPool.setBackend] using hsession inTxn heq hflag
    · have heq : p.holder j = .session c' inTxn := by
        simpa [ObConnectionPool.setHolder, ObConnectionPool.setBackend, hji] using hj
      have hne := hother j c' hji (by rw [heq]; rfl)
      simpa [ObConnectionPool.setHolder, ObConnectionPool.setBackend, hne] using
        h.session j c' inTxn heq hflag
  · intro j c' hj
    by_cases hji : j = i
    · subst hji
      have heq : holder = .releasing c' := by
        simpa [ObConnectionPool.setHolder, ObConnectionPool.setBackend] using hj
      obtain rfl : c' = c := hconn c' (by rw [heq]; rfl)
      simpa [ObConnectionPool.setBackend] using hreleasing heq
    · have heq : p.holder j = .releasing c' := by
        simpa [ObConnectionPool.setHolder, ObConnectionPool.setBackend, hji] using hj
      have hne := hother j c' hji (by rw [heq]; rfl)
      simpa [ObConnectionPool.setHolder, ObConnectionPool.setBackend, hne] using
        h.releasing j c' heq
  · intro c' hc'
    have hne : c' ≠ c := by
      rintro rfl
      exact hown.not_free i c' hi hc'
    simpa [ObConnectionPool.setHolder, ObConnectionPool.setBackend, hne] using h.free c' hc'
  · intro c'
    by_cases hc' : c' = c
    · subst hc'
      simpa [ObConnectionPool.setBackend] using hb
    · simpa [ObConnectionPool.setHolder, ObConnectionPool.setBackend, hc'] using h.none_implicit c'

omit [DecidableEq ι] in
theorem Owned.setBackend {p : ObConnectionPool κ ι} (h : p.Owned) (c : κ) (b : Backend) :
    (p.setBackend c b).Owned := ⟨h.free_nodup, h.not_free, h.holder_unique⟩

theorem step_owned {p p' : ObConnectionPool κ ι} {a : Action ι} (h : p.Owned)
    (hstep : p.step a = some p') : p'.Owned := by
  cases a with
  | acquireSession i =>
    simp only [step] at hstep
    split at hstep
    · next c rest hi hfree =>
      cases hstep
      exact h.acquire hi hfree
    · cases hstep
  | operate i op =>
    simp only [step] at hstep
    split at hstep
    · next c inTxn hi =>
      cases hstep
      exact (h.setHolder fun c' hc' => by rw [hi]; exact hc').setBackend c _
    · cases hstep
  | releaseConnection i =>
    simp only [step] at hstep
    split at hstep
    · next c inTxn hi =>
      cases hstep
      exact (h.setHolder fun c' hc' => by rw [hi]; exact hc').setBackend c _
    · cases hstep
  | pushFree i =>
    simp only [step] at hstep
    split at hstep
    · next c hi =>
      cases hstep
      exact h.pushFree hi _
    · cases hstep
  | destroySession i =>
    simp only [step] at hstep
    split at hstep
    · next c inTxn hi =>
      cases hstep
      exact (h.setHolder fun c' hc' => by cases hc').setBackend c _
    · cases hstep
  | cancelAll =>
    cases hstep
    exact ⟨h.free_nodup, h.not_free, h.holder_unique⟩

theorem step_mirrors {p p' : ObConnectionPool κ ι} {a : Action ι} (h : p.Mirrors) (hown : p.Owned)
    (hsafe : p.SafeStep a) (hstep : p.step a = some p') : p'.Mirrors := by
  cases a with
  | acquireSession i =>
    simp only [step] at hstep
    split at hstep
    · next c rest hi hfree =>
      cases hstep
      have hclosed : (p.backend c).txnOpen = false := h.free c (by rw [hfree]; simp)
      refine ⟨?_, ?_, fun c' hc' => h.free c' (by rw [hfree]; simp [hc']), h.none_implicit⟩
      · intro j c' inTxn hj hflag
        by_cases hji : j = i
        · subst hji
          obtain ⟨rfl, -⟩ : c = c' ∧ false = inTxn := by simpa using hj
          exact hclosed
        · exact h.session j c' inTxn (by simpa [hji] using hj) hflag
      · intro j c' hj
        by_cases hji : j = i
        · subst hji
          simp at hj
        · exact h.releasing j c' (by simpa [hji] using hj)
    · cases hstep
  | operate i op =>
    simp only [step] at hstep
    split at hstep
    · next c inTxn hi =>
      cases hstep
      have hlink := finalLink_of_triple (op.run_spec p.shutdownFlag)
        ⟨h.link hi, hsafe c inTxn hi⟩
      refine h.update hown (by rw [hi]; rfl) ?_ ?_ ?_ hlink.none_implicit
      · rintro c' ⟨⟩
        rfl
      · rintro inTxn' ⟨⟩ hflag
        exact hlink.closed hflag
      · rintro ⟨⟩
    · cases hstep
  | releaseConnection i =>
    simp only [step] at hstep
    split at hstep
    · next c inTxn hi =>
      cases hstep
      have hidle := release_idle (h.link hi)
      refine h.update hown (by rw [hi]; rfl) ?_ ?_ ?_ hidle.none_implicit
      · rintro c' ⟨⟩
        rfl
      · rintro inTxn' ⟨⟩
      · exact fun _ => hidle.closed
    · cases hstep
  | pushFree i =>
    simp only [step] at hstep
    split at hstep
    · next c hi =>
      cases hstep
      have hclosed := h.releasing i c hi
      refine ⟨?_, ?_, ?_, h.none_implicit⟩
      · intro j c' inTxn hj hflag
        by_cases hji : j = i
        · subst hji
          simp [ObConnectionPool.setHolder] at hj
        · exact h.session j c' inTxn (by simpa [ObConnectionPool.setHolder, hji] using hj) hflag
      · intro j c' hj
        by_cases hji : j = i
        · subst hji
          simp [ObConnectionPool.setHolder] at hj
        · exact h.releasing j c' (by simpa [ObConnectionPool.setHolder, hji] using hj)
      · intro c' hc'
        rw [List.mem_append, List.mem_singleton] at hc'
        rcases hc' with hc' | rfl
        · exact h.free c' hc'
        · exact hclosed
    · cases hstep
  | destroySession i =>
    simp only [step] at hstep
    split at hstep
    · next c inTxn hi =>
      cases hstep
      have hidle := release_idle (h.link hi)
      refine h.update hown (by rw [hi]; rfl) ?_ ?_ ?_ hidle.none_implicit
      · rintro c' ⟨⟩
      · rintro inTxn' ⟨⟩
      · rintro ⟨⟩
    · cases hstep
  | cancelAll =>
    cases hstep
    exact ⟨h.session, h.releasing, h.free, h.none_implicit⟩

/-- In every run whose steps all meet the condition, `inTxn_` mirrors the server in every state, a
connection in `free_` has no open transaction, and no `START TRANSACTION` has committed earlier
work. -/
theorem run_mirrors_of_safe {p₀ p : ObConnectionPool κ ι} {actions : List (Action ι)}
    (hinit : (lts κ ι).init p₀) (hrun : ((lts κ ι).guard SafeStep).Run p₀ actions p) :
    p.Mirrors := by
  have hstart : p₀.Owned ∧ p₀.Mirrors := by
    obtain ⟨conns, hnodup, rfl⟩ := hinit
    exact ⟨new_owned hnodup, new_mirrors conns⟩
  refine (hrun.preserves (I := fun p => p.Owned ∧ p.Mirrors) ?_ hstart).2
  rintro q a q' ⟨hown, hmirrors⟩ ⟨hstep, hsafe⟩
  exact ⟨step_owned hown hstep, step_mirrors hmirrors hown hsafe hstep⟩

/-- One user's transaction, committed before the flag is raised. -/
theorem run_mirrors_of_safe_commit :
    ∃ p, ((lts Unit Unit).guard SafeStep).Run (new [()])
      [.acquireSession (), .operate () (.execute .ok .none .ok), .operate () (.commit .ok),
        .cancelAll] p ∧ p.Mirrors := by
  let p₀ : ObConnectionPool Unit Unit := new [()]
  let p₁ := (p₀.step (.acquireSession ())).get rfl
  let p₂ := (p₁.step (.operate () (.execute .ok .none .ok))).get rfl
  let p₃ := (p₂.step (.operate () (.commit .ok))).get rfl
  let p₄ := (p₃.step .cancelAll).get rfl
  let L := (lts Unit Unit).guard SafeStep
  have hstep₁ : L.step p₀ (.acquireSession ()) p₁ := ⟨rfl, trivial⟩
  have hstep₂ : L.step p₁ (.operate () (.execute .ok .none .ok)) p₂ := ⟨rfl, fun _ _ _ => trivial⟩
  have hstep₃ : L.step p₂ (.operate () (.commit .ok)) p₃ :=
    ⟨rfl, fun _ _ _ _ => ⟨rfl, fun _ => by simp⟩⟩
  have hstep₄ : L.step p₃ .cancelAll p₄ := ⟨rfl, trivial⟩
  have hrun := ((((Lts.Run.nil p₀).snoc hstep₁).snoc hstep₂).snoc hstep₃).snoc hstep₄
  exact ⟨p₄, hrun, run_mirrors_of_safe ⟨[()], by simp, rfl⟩ hrun⟩

/-- A `Commit` that meets the raised flag: the session leaves its transaction open on the server,
and the connection goes back to `free_` with it. -/
theorem commit_after_cancelAll_leaves_txn_open :
    ∃ p : ObConnectionPool Unit Unit, (lts Unit Unit).Run (new [()])
      [.acquireSession (), .operate () (.execute .ok .none .ok), .cancelAll,
        .operate () (.commit .ok), .releaseConnection (), .pushFree ()] p ∧
      () ∈ p.free ∧ (p.backend ()).txnOpen = true ∧ ¬p.Mirrors := by
  obtain ⟨p, hrun, hfree, hopen⟩ : ∃ p : ObConnectionPool Unit Unit,
      [.acquireSession (), .operate () (.execute .ok .none .ok), .cancelAll,
        .operate () (.commit .ok), .releaseConnection (), .pushFree ()].foldlM step (new [()]) =
          some p ∧ () ∈ p.free ∧ (p.backend ()).txnOpen = true :=
    ⟨_, rfl, by decide, by decide⟩
  refine ⟨p, Lts.run_of_foldlM hrun, hfree, hopen, fun hmirrors => ?_⟩
  have hclosed := hmirrors.free () hfree
  rw [hopen] at hclosed
  cases hclosed

end ObConnectionPool

end Tpcc.Db
