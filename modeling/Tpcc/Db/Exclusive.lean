import Mathlib.Data.List.Perm.Basic
import Mathlib.Data.List.Nodup
import Tpcc.Db.Pool

/-! The containers of the pool: every connection is free once, or checked out once and held by one
user.  Users that give their sessions back through `ReleaseSession` keep it so. -/

namespace Tpcc.Db.ObConnectionPool

variable {κ ι : Type}

/-- The connections `conns` of the pool are its free ones and the checked-out ones, and those are the
ones with a holder. -/
structure Exclusive (conns : List κ) (p : ObConnectionPool κ ι) : Prop where
  perm : (p.free ++ p.checkedOut).Perm conns
  checkedOut_iff : ∀ c, c ∈ p.checkedOut ↔ ∃ i, (p.holder i).conn? = some c
  holder_unique : ∀ i j c, (p.holder i).conn? = some c → (p.holder j).conn? = some c → i = j

namespace Exclusive

variable {conns : List κ} {p p' : ObConnectionPool κ ι}

theorem length_eq (h : p.Exclusive conns) : p.free.length + p.checkedOut.length = conns.length := by
  rw [← List.length_append, h.perm.length_eq]

theorem nodup (h : p.Exclusive conns) (hconns : conns.Nodup) : (p.free ++ p.checkedOut).Nodup :=
  h.perm.nodup_iff.2 hconns

theorem new (conns : List κ) : (ObConnectionPool.new conns : ObConnectionPool κ ι).Exclusive conns where
  perm := by simp [ObConnectionPool.new]
  checkedOut_iff := by simp [ObConnectionPool.new, Holder.conn?]
  holder_unique := by simp [ObConnectionPool.new, Holder.conn?]

/-- A step after which every user holds the connection that it held. -/
theorem of_same_conns (h : p.Exclusive conns) (hfree : p'.free = p.free)
    (hout : p'.checkedOut = p.checkedOut)
    (hholder : ∀ i, (p'.holder i).conn? = (p.holder i).conn?) : p'.Exclusive conns where
  perm := by
    rw [hfree, hout]
    exact h.perm
  checkedOut_iff := by
    intro c
    simp only [hout, hholder]
    exact h.checkedOut_iff c
  holder_unique := by
    intro i j c
    rw [hholder, hholder]
    exact h.holder_unique i j c

variable [DecidableEq ι]

theorem conn?_update {holder : ι → Holder κ} {i : ι} {new : Holder κ} (j : ι) :
    (Function.update holder i new j).conn? = if j = i then new.conn? else (holder j).conn? := by
  by_cases hji : j = i
  · subst hji
    simp
  · simp [hji]

theorem acquire (h : p.Exclusive conns) (hconns : conns.Nodup) {i : ι} {c : κ} {rest : List κ}
    (hi : p.holder i = .none) (hfree : p.free = c :: rest) :
    ({ p with
        free := rest
        checkedOut := p.checkedOut ++ [c]
        holder := Function.update p.holder i (.session c false) } :
      ObConnectionPool κ ι).Exclusive conns := by
  have hnodup := h.nodup hconns
  rw [hfree] at hnodup
  have hunheld : ∀ j, (p.holder j).conn? ≠ some c := by
    intro j hj
    have hmem := (h.checkedOut_iff c).2 ⟨j, hj⟩
    exact (List.nodup_cons.1 hnodup).1 (List.mem_append_right rest hmem)
  have hnone : (p.holder i).conn? = none := by
    rw [hi]
    rfl
  refine ⟨?_, fun c' => ?_, fun j k c' hj hk => ?_⟩
  · refine List.Perm.trans ?_ h.perm
    rw [hfree, ← List.append_assoc, List.cons_append]
    exact List.perm_append_singleton c _
  · simp only [List.mem_append, List.mem_singleton, h.checkedOut_iff, conn?_update]
    constructor
    · rintro (⟨j, hj⟩ | rfl)
      · refine ⟨j, ?_⟩
        rw [if_neg fun hji => ?_]
        · exact hj
        · rw [hji, hnone] at hj
          cases hj
      · exact ⟨i, by simp [Holder.conn?]⟩
    · rintro ⟨j, hj⟩
      split at hj
      · exact .inr (Option.some.inj hj).symm
      · exact .inl ⟨j, hj⟩
  · simp only [conn?_update] at hj hk
    split at hj
    · next hji =>
      split at hk
      · next hki => rw [hji, hki]
      · rw [← Option.some.inj hj] at hk
        exact absurd hk (hunheld k)
    · split at hk
      · rw [← Option.some.inj hk] at hj
        exact absurd hj (hunheld j)
      · exact h.holder_unique j k c' hj hk

variable [DecidableEq κ]

theorem pushFree (h : p.Exclusive conns) (hconns : conns.Nodup) {i : ι} {c : κ}
    (hi : p.holder i = .releasing c) :
    ({ p.setHolder i .none with
        free := p.free ++ [c]
        checkedOut := p.checkedOut.filter (· ≠ c) } : ObConnectionPool κ ι).Exclusive conns := by
  have hheld : (p.holder i).conn? = some c := by
    rw [hi]
    rfl
  have hmem : c ∈ p.checkedOut := (h.checkedOut_iff c).2 ⟨i, hheld⟩
  have hout : p.checkedOut.Nodup := (List.nodup_append.1 (h.nodup hconns)).2.1
  refine ⟨?_, fun c' => ?_, fun j k c' hj hk => ?_⟩
  · refine List.Perm.trans ?_ h.perm
    have herase : p.checkedOut.filter (· ≠ c) = p.checkedOut.erase c := by
      rw [hout.erase_eq_filter]
      refine List.filter_congr fun c' _ => ?_
      by_cases hc' : c' = c <;> simp [hc']
    dsimp only
    rw [herase, List.append_assoc, List.singleton_append]
    exact (List.perm_cons_erase hmem).symm.append_left p.free
  · simp only [List.mem_filter, h.checkedOut_iff, setHolder, conn?_update, decide_eq_true_eq]
    constructor
    · rintro ⟨⟨j, hj⟩, hne⟩
      refine ⟨j, ?_⟩
      rw [if_neg fun hji => ?_]
      · exact hj
      · rw [hji, hheld] at hj
        exact hne (Option.some.inj hj).symm
    · rintro ⟨j, hj⟩
      split at hj
      · cases hj
      · next hji =>
        refine ⟨⟨j, hj⟩, ?_⟩
        rintro rfl
        exact hji (h.holder_unique j i c' hj hheld)
  · simp only [setHolder, conn?_update] at hj hk
    split at hj
    · cases hj
    · split at hk
      · cases hk
      · exact h.holder_unique j k c' hj hk

/-- A user goes on with the same connection. -/
theorem keep (h : p.Exclusive conns) {i : ι} {holder : Holder κ} (c : κ) (b : Backend)
    (hconn : holder.conn? = (p.holder i).conn?) :
    ((p.setHolder i holder).setBackend c b).Exclusive conns := by
  refine h.of_same_conns rfl rfl fun j => ?_
  simp only [setBackend, setHolder, conn?_update]
  split
  · next hji => rw [hconn, hji]
  · rfl

/-- Every step but the destruction of a session outside `ReleaseSession`. -/
theorem step (h : p.Exclusive conns) (hconns : conns.Nodup) {a : Action ι}
    (ha : ∀ i, a ≠ .destroySession i) (hstep : p.step a = some p') : p'.Exclusive conns := by
  cases a with
  | acquireSession i =>
    simp only [ObConnectionPool.step] at hstep
    split at hstep
    · next c rest hi hfree =>
      cases hstep
      exact h.acquire hconns hi hfree
    · cases hstep
  | operate i op =>
    simp only [ObConnectionPool.step] at hstep
    split at hstep
    · next c inTxn hi =>
      cases hstep
      exact h.keep c _ (by rw [hi]; rfl)
    · cases hstep
  | releaseConnection i =>
    simp only [ObConnectionPool.step] at hstep
    split at hstep
    · next c inTxn hi =>
      cases hstep
      exact h.keep c _ (by rw [hi]; rfl)
    · cases hstep
  | pushFree i =>
    simp only [ObConnectionPool.step] at hstep
    split at hstep
    · next c hi =>
      cases hstep
      exact h.pushFree hconns hi
    · cases hstep
  | destroySession i => exact absurd rfl (ha i)
  | cancelAll =>
    cases hstep
    exact h.of_same_conns rfl rfl fun _ => rfl

omit [DecidableEq ι] in
/-- The place of one connection. -/
theorem place (h : p.Exclusive conns) (hconns : conns.Nodup) {c : κ} (hc : c ∈ conns) :
    (p.free.count c = 1 ∧ p.checkedOut.count c = 0 ∧ ∀ i, (p.holder i).conn? ≠ some c) ∨
    (p.free.count c = 0 ∧ p.checkedOut.count c = 1 ∧ ∃! i, (p.holder i).conn? = some c) := by
  have hone : p.free.count c + p.checkedOut.count c = 1 := by
    rw [← List.count_append, h.perm.count_eq, List.count_eq_one_of_mem hconns hc]
  by_cases hmem : c ∈ p.checkedOut
  · have hpos := List.count_pos_iff.2 hmem
    obtain ⟨i, hi⟩ := (h.checkedOut_iff c).1 hmem
    exact .inr ⟨by omega, by omega, i, hi, fun j hj => h.holder_unique j i c hj hi⟩
  · have hzero := List.count_eq_zero.2 hmem
    exact .inl ⟨by omega, hzero, fun i hi => hmem ((h.checkedOut_iff c).2 ⟨i, hi⟩)⟩

end Exclusive

end Tpcc.Db.ObConnectionPool
