import Tpcc.Serial.NoStop
import Tpcc.Store.ForeignKeys

/-! The tables after an import satisfy the foreign keys. -/

namespace Tpcc.Import

open Store Transaction Check Serial

/-- The customer of an imported order is one of the district. -/
theorem customerIds_mem (order : OrderDraws) {oid : Nat} (hlow : 1 ≤ oid)
    (hhigh : oid ≤ customersPerDistrict) :
    1 ≤ order.customerIds.getD (oid - 1) 0 ∧
      order.customerIds.getD (oid - 1) 0 ≤ customersPerDistrict := by
  have hlength := order.shuffled.length_eq
  rw [List.length_range'] at hlength
  have hindex : oid - 1 < order.customerIds.length := by omega
  have hmem := order.shuffled.mem_iff.1 (List.getElem_mem hindex)
  rw [List.mem_range'_1] at hmem
  rw [List.getD_eq_getElem?_getD, List.getElem?_eq_getElem hindex, Option.getD_some]
  omega

theorem importTables_foreignKeys (draws : ImportDraws) (warehouseCount : Nat) :
    ForeignKeys (keyColumns (importTables draws warehouseCount)) := by
  have hpopulated := importTables_populated draws warehouseCount
  have hwarehouse := hpopulated.warehouse
  have hdistrict := hpopulated.district
  have hstock := hpopulated.stock
  have hcustomer : ∀ k ∈ orderGrid warehouseCount,
      k ∈ (keyColumns (importTables draws warehouseCount)).customer := by
    intro k hk
    rw [← map_key_customer draws] at hk
    exact hk
  have horder : ∀ k ∈ orderGrid warehouseCount,
      k ∈ (keyColumns (importTables draws warehouseCount)).oorder.map Prod.fst := by
    intro k hk
    rw [map_fst_oorder, map_key_oorder]
    exact hk
  have hstocks : ∀ k ∈ (keyColumns (importTables draws warehouseCount)).stock,
      (1 ≤ k.1 ∧ k.1 ≤ warehouseCount) ∧ ∃ i : Nat, (1 ≤ i ∧ i ≤ itemCount) ∧ k.2 = i := by
    intro k hk
    obtain ⟨r, hr, rfl⟩ := List.mem_map.1 hk
    obtain ⟨w, hw, hr⟩ := List.mem_flatMap.1 hr
    obtain ⟨i, hi, rfl⟩ := List.mem_map.1 hr
    rw [List.mem_range'_1] at hw hi
    exact ⟨by dsimp only [Stock.key]; omega, i, by omega, rfl⟩
  refine ⟨fun k hk => hwarehouse _ (hstocks k hk).1, fun k hk => ?_, fun k hk => ?_, fun k hk => ?_,
    fun k hk => ?_, fun k hk => ?_, fun k hk => ?_, fun k hk => ?_, fun k hk => ?_, fun k hk => ?_⟩
  · obtain ⟨-, i, hi, heq⟩ := hstocks k hk
    rw [heq]
    exact hpopulated.item i hi
  · have hk : k ∈ grid warehouseCount := map_key_district draws ▸ hk
    exact hwarehouse _ (mem_grid.1 hk).1
  · have hk : k ∈ orderGrid warehouseCount := map_key_customer draws ▸ hk
    exact hdistrict _ (mem_orderGrid.1 hk).1
  · have hk : k ∈ orderGrid warehouseCount := map_customer_history draws ▸ hk
    exact hcustomer _ hk
  · obtain ⟨r, hr, rfl⟩ := List.mem_map.1 hk
    obtain ⟨p, hp, hr⟩ := List.mem_flatMap.1 hr
    rw [mem_loadHistory hr]
    exact hdistrict _ hp
  · obtain ⟨r, hr, rfl⟩ := List.mem_map.1 hk
    obtain ⟨p, hp, hr⟩ := List.mem_flatMap.1 hr
    obtain ⟨oid, hoid, rfl⟩ := List.mem_map.1 hr
    rw [List.mem_range'_1] at hoid
    exact hcustomer _ (mem_orderGrid.2 ⟨hp, customerIds_mem _ (by omega) (by omega)⟩)
  · obtain ⟨r, hr, rfl⟩ := List.mem_map.1 hk
    obtain ⟨hgrid, hlow, hhigh⟩ := mem_key_newOrder.1 ⟨r, hr, rfl⟩
    rw [firstUnprocessedOId] at hlow
    exact horder _ (mem_orderGrid.2 ⟨hgrid, by omega, hhigh⟩)
  · obtain ⟨r, hr, rfl⟩ := List.mem_map.1 hk
    exact horder _ (mem_orderLine hr).1
  · obtain ⟨r, hr, rfl⟩ := List.mem_map.1 hk
    rw [orderLine_eq] at hr
    obtain ⟨p, hp, hr⟩ := List.mem_flatMap.1 hr
    obtain ⟨n, -, rfl⟩ := List.mem_map.1 hr
    obtain ⟨hgrid, -⟩ := mem_orderGrid.1 hp
    exact hstock _ (mem_grid.1 hgrid).1 _ ((draws.order p.1 p.2.1).line p.2.2 n).itemId.property

end Tpcc.Import
