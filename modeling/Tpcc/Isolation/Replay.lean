import Tpcc.Isolation.Spec
import Tpcc.Isolation.Write

/-! The writes of a transaction are those of its statements on the committed tables, also after others
have committed: what its statements address is locked, or has not changed. -/

namespace Tpcc.Isolation

open Lib Store Transaction

section Rows

theorem row_of_version {db : Database} {row : Row} {v : Version} (h : version db row = some v) :
    v.row = row := by
  obtain ⟨α, κ, _, T, k, rfl⟩ := row.exists_ref
  rw [T.version_row] at h
  obtain ⟨r, hr, rfl⟩ := Option.map_eq_some_iff.1 h
  rw [T.make_row, (Table.lookup_eq_some hr).2]

/-- The rows that a statement writes. -/
theorem writeRows_writes {now : Nat} {m : Modify} {db db' : Database} {writes : List Write}
    (happly : m.apply now db = some db') (h : m.writes now db = some writes) :
    writeRows writes =
      (m.target.rows db).filter fun r => (version db r).isSome || (version db' r).isSome := by
  rw [Modify.writes, happly, Option.map_some, Option.some_inj] at h
  rw [← h, writeRows, List.filterMap_append, List.filterMap_map, List.filterMap_map]
  have hhistory : (Write.row? ∘ Write.history) = fun _ => none := rfl
  have hrow : (Write.row? ∘ fun r => Write.of r (version db' r)) = some := by
    funext r
    cases hr : version db' r with
    | none => simp [hr, Write.of, Write.row?]
    | some v => simp [hr, Write.of, Write.row?, row_of_version hr]
  rw [hhistory, hrow]
  simp

/-- The tables whose keys never change. -/
def Row.static : Row → Bool
  | .warehouse _ => true
  | .district _ => true
  | .customer _ => true
  | .stock _ => true
  | _ => false

end Rows

/-- Tables in which statements that address the rows of `locks`, or the lines of `orders`, write the
same. -/
structure Matches (locks : List Row) (orders : List (Nat × Nat × Nat)) (db db' : Database) :
    Prop where
  agree : Agree locks db db'
  present : ∀ row, row.static = true → (version db' row).isSome = (version db row).isSome
  lines : ∀ k ∈ orders,
    (linesOf db'.orderLine k).map OrderLine.key = (linesOf db.orderLine k).map OrderLine.key
  keyed : Keyed db
  keyed' : Keyed db'

section Matches

variable {locks : List Row} {orders : List (Nat × Nat × Nat)} {db db' : Database}

theorem isSome_of_keys {α κ : Type} [DecidableEq κ] (T : TableRef α κ) (k : κ)
    (h : (T.get db').map T.key = (T.get db).map T.key) :
    (version db' (T.row k)).isSome = (version db (T.row k)).isSome := by
  rw [T.version_row, T.version_row, Option.isSome_map, Option.isSome_map, Bool.eq_iff_iff,
    Table.lookup_isSome, Table.lookup_isSome, h]

theorem Rely.matches (h : Rely locks db db') (hsound : Sound db) :
    Matches locks (db.oorder.map Oorder.key) db db' where
  agree := h.agree
  present row hrow := by
    cases row with
    | warehouse k => exact isSome_of_keys .warehouse k h.later.warehouse
    | district k => exact isSome_of_keys .district k h.later.district
    | customer k => exact isSome_of_keys .customer k h.later.customer
    | stock k => exact isSome_of_keys .stock k h.later.stock
    | oorder k => exact nomatch hrow
    | newOrder k => exact nomatch hrow
    | orderLine k => exact nomatch hrow
  lines k hk := by
    obtain ⟨o, ho, rfl⟩ := List.mem_map.1 hk
    have hlines := congrArg (List.map Prod.fst) (h.later.lines o ho)
    rwa [List.map_map, List.map_map] at hlines
  keyed := hsound.keyed
  keyed' := h.sound.keyed

/-- What a write makes of the keys of an order's lines. -/
theorem lineKeys_apply (w : Write) (k : Nat × Nat × Nat) :
    ∃ g : List (Nat × Nat × Nat × Nat) → List (Nat × Nat × Nat × Nat), ∀ db : Database,
      (linesOf (w.apply db).orderLine k).map OrderLine.key =
        g ((linesOf db.orderLine k).map OrderLine.key) := by
  have horder : ∀ r r' : OrderLine, r.key = r'.key →
      decide (r.order = k) = decide (r'.order = k) := by
    intro r r' hkey
    simp only [OrderLine.key, Prod.mk.injEq] at hkey
    rw [OrderLine.order, OrderLine.order, hkey.1, hkey.2.1, hkey.2.2.1]
  cases w with
  | put v =>
    cases v with
    | orderLine r =>
      refine ⟨fun keys => if r.order = k then
        if r.key ∈ keys then keys else keys ++ [r.key] else keys, fun db => ?_⟩
      change List.map OrderLine.key
        ((Table.upsert OrderLine.key r db.orderLine).filter fun l => l.order = k) = _
      rw [Table.filter_upsert horder]
      by_cases hr : r.order = k
      · dsimp only
        rw [if_pos (decide_eq_true hr), if_pos hr, Table.map_key_upsert, linesOf]
        congr
      · dsimp only
        rw [if_neg (by simpa using hr), if_neg hr]
        rfl
    | _ => exact ⟨id, fun db => rfl⟩
  | delete row =>
    cases row with
    | orderLine key =>
      refine ⟨fun keys => keys.filter fun key' => key' ≠ key, fun db => ?_⟩
      change List.map OrderLine.key
        ((db.orderLine.filter fun l => l.key ≠ key).filter fun l => l.order = k) = _
      dsimp only
      rw [List.filter_map, List.filter_filter, linesOf, List.filter_filter]
      simp only [Function.comp_def, Bool.and_comm]
    | _ => exact ⟨id, fun db => rfl⟩
  | history r => exact ⟨id, fun db => rfl⟩

theorem Matches.apply (h : Matches locks orders db db') (w : Write) :
    Matches locks orders (w.apply db) (w.apply db') where
  agree row hrow := by
    by_cases hw : w.row? = some row
    · exact version_apply_of_eq hw db' db
    · rw [version_apply_of_ne hw, version_apply_of_ne hw]
      exact h.agree row hrow
  present row hrow := by
    by_cases hw : w.row? = some row
    · rw [version_apply_of_eq hw db' db]
    · rw [version_apply_of_ne hw, version_apply_of_ne hw]
      exact h.present row hrow
  lines k hk := by
    obtain ⟨g, hg⟩ := lineKeys_apply w k
    rw [hg, hg, h.lines k hk]
  keyed := Keyed.apply h.keyed w
  keyed' := Keyed.apply h.keyed' w

theorem Matches.applyWrites (h : Matches locks orders db db') (writes : List Write) :
    Matches locks orders (applyWrites writes db) (applyWrites writes db') := by
  induction writes generalizing db db' with
  | nil => exact h
  | cons w rest ih => exact ih (h.apply w)

end Matches

/-- A statement that was executed, with its time and its writes. -/
structure Entry where
  now : Nat
  statement : Modify
  writes : List Write

/-- What the statements of the entries are, and what they write. -/
def statements (entries : List Entry) : List (Nat × Modify) :=
  entries.map fun e => (e.now, e.statement)

def writes (entries : List Entry) : List Write := entries.flatMap Entry.writes

/-- A statement addresses a row whose key never changes, a row that it has written, or the lines of
one of the orders. -/
def Entry.Fits (orders : List (Nat × Nat × Nat)) (e : Entry) : Prop :=
  match e.statement.target with
  | .row r => r.static = true ∨ r ∈ writeRows e.writes
  | .lines order => order ∈ orders
  | .history => True

/-- Executing the statements on the tables gives the writes. -/
def Replays (orders : List (Nat × Nat × Nat)) : List Entry → Database → Prop
  | [], _ => True
  | e :: rest, db => e.statement.writes e.now db = some e.writes ∧ e.Fits orders ∧
    Replays orders rest (applyWrites e.writes db)

section Replays

variable {locks : List Row} {orders : List (Nat × Nat × Nat)} {db db' : Database}
  {entries : List Entry}

theorem Replays.append {e : Entry} (h : Replays orders entries db)
    (hwrites : e.statement.writes e.now (applyWrites (writes entries) db) = some e.writes)
    (hfits : e.Fits orders) : Replays orders (entries ++ [e]) db := by
  induction entries generalizing db with
  | nil => exact ⟨hwrites, hfits, trivial⟩
  | cons e' rest ih =>
    rw [writes, List.flatMap_cons, applyWrites_append] at hwrites
    exact ⟨h.1, h.2.1, ih h.2.2 hwrites⟩

theorem Replays.mono {orders' : List (Nat × Nat × Nat)} (hsub : orders ⊆ orders')
    (h : Replays orders entries db) : Replays orders' entries db := by
  induction entries generalizing db with
  | nil => trivial
  | cons e rest ih =>
    refine ⟨h.1, ?_, ih h.2.2⟩
    have hfits := h.2.1
    unfold Entry.Fits at hfits ⊢
    split at hfits
    · exact hfits
    · exact hsub hfits
    · trivial

/-- The statements in a row do what the writes do. -/
theorem Replays.applyStatements (hkeyed : Keyed db) (h : Replays orders entries db) :
    applyStatements (statements entries) db = some (applyWrites (writes entries) db) := by
  induction entries generalizing db with
  | nil => rfl
  | cons e rest ih =>
    obtain ⟨hwrites, -, hrest⟩ := h
    have hfirst := Modify.apply_of_writes hkeyed hwrites
    rw [statements, List.map_cons, applyStatements_cons, hfirst, Option.bind_some, writes,
      List.flatMap_cons, applyWrites_append]
    exact ih (Keyed.applyWrites hkeyed e.writes) hrest

/-- What a statement that fits addresses is the same. -/
theorem Matches.same {e : Entry} (h : Matches locks orders db db')
    (hwrites : e.statement.writes e.now db = some e.writes) (hfits : e.Fits orders)
    (hlocks : writeRows e.writes ⊆ locks) : e.statement.target.Same db db' := by
  have hrows := writeRows_writes (Modify.apply_of_writes h.keyed hwrites) hwrites
  unfold Entry.Fits at hfits
  split at hfits
  · next r target =>
    rw [target] at hrows ⊢
    by_cases hr : r ∈ writeRows e.writes
    · exact h.agree r (hlocks hr)
    · have hstatic := hfits.resolve_right hr
      have hnone : version db r = none := by
        rw [← Option.not_isSome_iff_eq_none]
        intro hsome
        rw [hrows] at hr
        refine hr (List.mem_filter.2 ⟨List.mem_singleton.2 rfl, ?_⟩)
        rw [hsome]
        rfl
      have hnone' : version db' r = none := by
        rw [← Option.not_isSome_iff_eq_none, h.present r hstatic, hnone]
        decide
      exact hnone'.trans hnone.symm
  · next order target =>
    rw [target] at hrows ⊢
    have hnodup : ∀ {u : Database}, Keyed u →
        ((linesOf u.orderLine order).map OrderLine.key).Nodup := fun hu =>
      hu.orderLine.sublist (List.filter_sublist.map _)
    have hlookup : ∀ {u : Database}, Keyed u → ∀ k ∈ (linesOf u.orderLine order).map OrderLine.key,
        Table.lookup OrderLine.key k (linesOf u.orderLine order) =
          Table.lookup OrderLine.key k u.orderLine := by
      intro u hu k hk
      obtain ⟨l, hl, hkey⟩ := List.mem_map.1 hk
      rw [Table.lookup_of_mem (hnodup hu) hl hkey,
        Table.lookup_of_mem hu.orderLine (List.mem_of_mem_filter hl) hkey]
    refine Table.eq_of_lookup (hnodup h.keyed) (hnodup h.keyed') (h.lines order hfits) fun k hk => ?_
    rw [hlookup h.keyed k hk, hlookup h.keyed' k (by rwa [h.lines order hfits])]
    refine lookup_of_version (fun _ _ heq => Version.orderLine.inj heq)
      (h.agree (.orderLine k) (hlocks ?_))
    obtain ⟨l, hl, rfl⟩ := List.mem_map.1 hk
    rw [hrows]
    refine List.mem_filter.2 ⟨List.mem_map.2 ⟨l, hl, rfl⟩, ?_⟩
    have hbefore : version db (.orderLine l.key) = some (.orderLine l) := by
      rw [version, Table.lookup_of_mem h.keyed.orderLine (List.mem_of_mem_filter hl) rfl,
        Option.map_some]
    rw [hbefore]
    rfl
  · next target =>
    rw [target]
    trivial

/-- What others commit keeps the writes. -/
theorem Replays.stable (hmatches : Matches locks orders db db')
    (hlocks : writeRows (writes entries) ⊆ locks) (h : Replays orders entries db) :
    Replays orders entries db' := by
  induction entries generalizing db db' with
  | nil => trivial
  | cons e rest ih =>
    obtain ⟨hwrites, hfits, hrest⟩ := h
    rw [writes, List.flatMap_cons, writeRows, List.filterMap_append] at hlocks
    have hfirst : writeRows e.writes ⊆ locks := fun r hr => hlocks (List.mem_append_left _ hr)
    refine ⟨?_, hfits, ih (hmatches.applyWrites e.writes)
      (fun r hr => hlocks (List.mem_append_right _ hr)) hrest⟩
    rw [Modify.writes_congr hmatches.keyed hmatches.keyed' (hmatches.same hwrites hfits hfirst)]
    exact hwrites

end Replays

/-- The statements of the transactions fit. -/
theorem Hit.fits {now : Nat} {m : Modify} {db view : Database} {ws : List Write}
    (hkeyed : Keyed view) (hhit : Hit db view m) (h : m.writes now view = some ws) :
    (Entry.mk now m ws).Fits (db.oorder.map Oorder.key) := by
  have hrows := writeRows_writes (Modify.apply_of_writes hkeyed h) h
  have hwritten : ∀ {α κ : Type} [DecidableEq κ] (T : TableRef α κ) (k : κ),
      m.target = .row (T.row k) → k ∈ (T.get view).map T.key → T.row k ∈ writeRows ws := by
    intro α κ _ T k target hk
    rw [hrows, target]
    refine List.mem_filter.2 ⟨List.mem_singleton.2 rfl, ?_⟩
    rw [T.version_row, Option.isSome_map, Table.lookup_isSome.2 hk]
    rfl
  have hinserted : ∀ {α κ : Type} [DecidableEq κ] (T : TableRef α κ) (r : α),
      m.target = .row (T.row (T.key r)) →
      (∀ db, m.apply now db = (Table.insert T.key r (T.get db)).map (T.set db)) →
      T.row (T.key r) ∈ writeRows ws := by
    intro α κ _ T r target apply
    rw [writes_insert target apply] at h
    cases hr : Table.lookup T.key (T.key r) (T.get view) with
    | some r' =>
      rw [hr] at h
      exact nomatch h
    | none =>
      rw [hr] at h
      obtain rfl := Option.some.inj h
      exact List.mem_filterMap.2 ⟨_, List.mem_singleton.2 rfl, congrArg some (T.make_row r)⟩
  cases m with
  | newOrderInsertOorder w d o c olCnt allLocal =>
    exact .inr (hinserted .oorder ⟨w, d, o, c, none, olCnt, allLocal⟩ rfl fun _ => rfl)
  | newOrderInsertNewOrder w d o => exact .inr (hinserted .newOrder ⟨w, d, o⟩ rfl fun _ => rfl)
  | newOrderInsertOrderLine w d o number i amount supply qty distInfo =>
    exact .inr (hinserted .orderLine ⟨w, d, o, number, i, none, amount, supply, qty, distInfo⟩ rfl
      fun _ => rfl)
  | deliveryDeleteNewOrder w d o => exact .inr (hwritten .newOrder (w, d, o) rfl hhit)
  | deliveryUpdateCarrier carrier w d o => exact .inr (hwritten .oorder (w, d, o) rfl hhit)
  | deliveryUpdateOrderLineDelivery w d o => exact hhit
  | paymentInsertHistory c cd cw d w amount data => trivial
  | _ => exact .inl rfl

end Tpcc.Isolation
