import Tpcc.Check.FullJoin
import Tpcc.Check.Groups

/-! The consistency checks pass on tables with the invariant of the transactions. -/

namespace Tpcc.Check

open Lib Store Transaction

variable {db : Database} {warehouseCount : Nat}

theorem consistencyCheck3321_of_sound (h : Sound db) : consistencyCheck3321 db = .ok () :=
  checkSums_ok.2 fun w hw _ => h.consistent.warehouseYtd w hw

theorem consistencyCheck3328_of_sound (h : Sound db) : consistencyCheck3328 db = .ok () :=
  consistencyCheck3328_ok.2 fun w hw _ => h.consistent.warehouseHistory w hw

theorem consistencyCheck3329_of_sound (h : Sound db) : consistencyCheck3329 db = .ok () :=
  consistencyCheck3329_ok.2 fun d hd _ => h.consistent.districtHistory d hd

theorem consistencyCheck3322_of_sound (h : Sound db) : consistencyCheck3322 db = .ok () := by
  refine consistencyCheck3322_ok.2 fun d hd _ => ?_
  obtain ⟨greatest, hmax, hnext⟩ := h.consistent.nextOrder d hd
  rw [NextOrderOk, hmax]
  refine ⟨?_, fun hne => ?_⟩
  · change (d.dNextOId : Int) - 1 = (greatest : Int)
    omega
  · obtain ⟨id, hid⟩ := List.exists_mem_of_ne_nil _ hne
    obtain ⟨greatest', hmax'⟩ := Option.isSome_iff_exists.1 (List.isSome_max?_of_mem hid)
    have hnext' := h.consistent.nextNewOrder d hd greatest' hmax'
    rw [hmax', show greatest = greatest' by omega]

theorem min?_range' {first n : Nat} (h : 0 < n) : (List.range' first n).min? = some first := by
  rw [List.min?_eq_some_iff]
  simp only [List.mem_range'_1]
  exact ⟨by omega, fun b hb => hb.1⟩

theorem consistencyCheck3323_of_sound (h : Sound db) : consistencyCheck3323 db = .ok () := by
  rw [consistencyCheck3323, checkNoRows_ok, List.filter_eq_nil_iff]
  rintro ⟨k, rows⟩ hmem
  obtain ⟨⟨r, hr, rfl⟩, rfl⟩ := Sql.mem_groupBy.1 hmem
  obtain ⟨p, hp, hdistrict⟩ := List.mem_map.1 (h.orders.newOrderDistrict r hr)
  obtain ⟨first, -, -, hids⟩ := h.orders.newOrders p hp
  rw [hdistrict] at hids
  have hids' : (db.newOrder.filter fun r' => (r'.noWId, r'.noDId) = (r.noWId, r.noDId)).map
      NewOrder.noOId = List.range' first (p.2 - first) := hids
  have hlength := congrArg List.length hids'
  rw [List.length_map, List.length_range'] at hlength
  have hpos : 0 < p.2 - first := by
    rw [← hlength]
    exact List.length_pos_of_mem (List.mem_filter.2 ⟨hr, by simp⟩)
  have hzero : ((p.2 - first : Nat) : Int) -
      (((first + (p.2 - first) - 1 : Nat) : Int) - (first : Int) + 1) = 0 := by omega
  simp only [hids', hlength, max?_range' hpos, min?_range' hpos, Option.bind_some]
  change ¬decide (some (decide (_ - (_ - ((first : Nat) : Int) + 1) ≠ (0 : Int))) = some true) = true
  rw [hzero]
  decide

theorem consistencyCheck3324_of_sound (h : Sound db) :
    consistencyCheck3324 db warehouseCount = .ok () := by
  refine (consistencyCheck3324_ok fun o ho => (h.orders.lineCount o ho).2).2 fun w _ d => ?_
  exact (h.orders.districtLineCount (w, d)).symm

/-- The carriers are numbered from 1. -/
def CarriersOk (db : Database) : Prop := ∀ o ∈ db.oorder, o.oCarrierId ≠ some 0

theorem consistencyCheck3325_of_sound (h : Sound db) (hcarriers : CarriersOk db) :
    consistencyCheck3325 db warehouseCount = .ok () := by
  refine (consistencyCheck3325_ok h.keyed.oorder).2 fun w _ => ⟨fun n hn _ => ?_, fun o ho _ hnone => ?_⟩
  · obtain ⟨p, hp, hdistrict⟩ := List.mem_map.1 (h.orders.newOrderDistrict n hn)
    obtain ⟨-, hids⟩ := h.orders.orders p hp
    obtain ⟨first, hfirst, -, hnids⟩ := h.orders.newOrders p hp
    rw [hdistrict] at hids hnids
    have hid : n.noOId ∈ newOrderIds db.newOrder n.district :=
      List.mem_map_of_mem (List.mem_filter.2 ⟨hn, by simp⟩)
    rw [hnids, List.mem_range'_1] at hid
    have hid' : n.noOId ∈ orderIds db.oorder n.district := by
      rw [hids, List.mem_range'_1]
      omega
    obtain ⟨o, ho, hoid⟩ := List.mem_map.1 hid'
    obtain ⟨ho, hod⟩ := List.mem_filter.1 ho
    have hkey : o.key = n.key := by
      have := of_decide_eq_true hod
      simp only [Oorder.district, NewOrder.district, Prod.mk.injEq] at this
      simp [NewOrder.key, Oorder.key, this, hoid]
    exact ⟨o, ho, hkey, .inl ((h.orders.carrier o ho).2 ⟨n, hn, hkey.symm⟩)⟩
  · exact (h.orders.carrier o ho).1 (hnone.resolve_right (hcarriers o ho))

theorem consistencyCheck3326_of_sound (h : Sound db) :
    consistencyCheck3326 db warehouseCount = .ok () :=
  consistencyCheck3326_ok.2 fun _ _ =>
    ⟨fun o ho _ => (h.orders.lineCount o ho).1.symm, fun l hl _ => h.orders.lineOrder l hl⟩

theorem consistencyCheck3327_of_sound (h : Sound db) :
    consistencyCheck3327 db warehouseCount = .ok () := by
  refine consistencyCheck3327_ok.2 fun o ho _ hfound => ?_
  rcases hfound with ⟨hcarrier, ⟨l, hl, horder⟩, hall⟩ | ⟨hcarrier, l, hl, horder, hnull⟩
  · exact hall l hl horder ((h.orders.delivery o ho l hl horder).2 hcarrier)
  · exact hcarrier ((h.orders.delivery o ho l hl horder).1 hnull)

theorem consistencyCheck33212_of_sound (h : Sound db) :
    consistencyCheck33212 db warehouseCount = .ok () :=
  consistencyCheck33212_ok.2 fun c hc _ _ => h.consistent.balanceYtd c hc

theorem consistencyCheck33210_of_sound (h : Sound db) :
    consistencyCheck33210 db warehouseCount = .ok () :=
  consistencyCheck33210_ok.2 fun _ _ c hc _ => h.consistent.balance c hc

end Tpcc.Check
