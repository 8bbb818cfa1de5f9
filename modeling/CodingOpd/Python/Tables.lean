import Mathlib.Data.List.Nodup
import CodingOpd.Python.Values

/-!
# Tables

A table is read row by row. A row is admitted when it can be read, its id is not that of an earlier
row and its content is accepted; otherwise the loop raises.

## Main definitions

* `Admits`: the rounds of a loop that admits rows

## Main results

* `Admits.run_eq_ok`: what it means that a table is admitted
* `Admits.run_perm`: a permuted table is admitted, with the rows permuted
-/

namespace Python

variable {σ τ : Type}

/-- A round of a loop that admits the rows of a table: the row is read, its id is new and its
content is accepted. -/
def Admits (step : List τ → σ → Except PyError (List τ)) (read : σ → Option τ) (uid : τ → String)
    (Accepts : τ → Prop) : Prop :=
  ∀ admitted raw pool, step admitted raw = .ok pool ↔ ∃ row, read raw = some row ∧
    uid row ∉ admitted.map uid ∧ Accepts row ∧ pool = admitted ++ [row]

namespace Admits

variable {step : List τ → σ → Except PyError (List τ)} {read : σ → Option τ} {uid : τ → String}
variable {Accepts : τ → Prop}

/-- The rows so far, and the rows that are left. -/
theorem foldlM_eq_ok (h : Admits step read uid Accepts) {rows : List σ} {admitted pool : List τ}
    (hadmitted : (admitted.map uid).Nodup) :
    rows.foldlM step admitted = .ok pool ↔
      (∀ raw ∈ rows, (read raw).isSome) ∧ pool = admitted ++ rows.filterMap read ∧
      (pool.map uid).Nodup ∧ ∀ row ∈ rows.filterMap read, Accepts row := by
  induction rows generalizing admitted with
  | nil =>
    constructor
    · rintro ⟨rfl⟩
      exact ⟨by simp, by simp, hadmitted, by simp⟩
    · rintro ⟨-, rfl, -⟩
      simp only [List.filterMap_nil, List.append_nil]
      rfl
  | cons raw rows ih =>
    rw [List.foldlM_cons, bind_eq_ok]
    constructor
    · rintro ⟨next, hnext, hrest⟩
      obtain ⟨row, hrow, hnew, haccepts, rfl⟩ := (h admitted raw next).mp hnext
      have hnodup : ((admitted ++ [row]).map uid).Nodup := by
        rw [List.map_append]
        exact hadmitted.append (List.nodup_singleton _) (List.disjoint_singleton.mpr hnew)
      obtain ⟨hall, rfl, hids, hrests⟩ := (ih hnodup).mp hrest
      rw [List.filterMap_cons_some hrow]
      exact ⟨List.forall_mem_cons.mpr ⟨by simp [hrow], hall⟩, by simp, hids,
        List.forall_mem_cons.mpr ⟨haccepts, hrests⟩⟩
    · rintro ⟨hall, hpool, hids, haccepts⟩
      obtain ⟨hraw, hall⟩ := List.forall_mem_cons.mp hall
      obtain ⟨row, hrow⟩ := Option.isSome_iff_exists.mp hraw
      rw [List.filterMap_cons_some hrow] at hpool haccepts
      obtain ⟨haccept, haccepts⟩ := List.forall_mem_cons.mp haccepts
      obtain rfl : pool = (admitted ++ [row]) ++ rows.filterMap read := by
        rw [hpool, List.append_assoc]
        rfl
      have hnodup : ((admitted ++ [row]).map uid).Nodup := by
        rw [List.map_append] at hids
        exact hids.of_append_left
      have hnew : uid row ∉ admitted.map uid := by
        rw [List.map_append] at hnodup
        exact List.disjoint_singleton.mp (List.disjoint_of_nodup_append hnodup)
      exact ⟨admitted ++ [row], (h admitted raw _).mpr ⟨row, hrow, hnew, haccept, rfl⟩,
        (ih hnodup).mpr ⟨hall, rfl, hids, haccepts⟩⟩

/-- **A table is admitted** when every row is read and accepted and the ids are distinct. -/
theorem run_eq_ok (h : Admits step read uid Accepts) {rows : List σ} {pool : List τ} :
    rows.foldlM step [] = .ok pool ↔
      (∀ raw ∈ rows, (read raw).isSome) ∧ pool = rows.filterMap read ∧
      (pool.map uid).Nodup ∧ ∀ row ∈ pool, Accepts row := by
  have hstart : (([] : List τ).map uid).Nodup := List.nodup_nil
  rw [h.foldlM_eq_ok hstart, List.nil_append]
  constructor
  · rintro ⟨hall, rfl, hids, haccepts⟩
    exact ⟨hall, rfl, hids, haccepts⟩
  · rintro ⟨hall, rfl, hids, haccepts⟩
    exact ⟨hall, rfl, hids, haccepts⟩

/-- **A permuted table is admitted**, with the rows permuted. -/
theorem run_perm (h : Admits step read uid Accepts) {rows rows' : List σ} {pool : List τ}
    (hperm : rows.Perm rows') (hpool : rows.foldlM step [] = .ok pool) :
    ∃ pool', rows'.foldlM step [] = .ok pool' ∧ pool.Perm pool' := by
  obtain ⟨hall, rfl, hids, haccepts⟩ := h.run_eq_ok.mp hpool
  have hpools : (rows.filterMap read).Perm (rows'.filterMap read) := hperm.filterMap _
  refine ⟨_, h.run_eq_ok.mpr ⟨fun raw hraw => hall raw (hperm.mem_iff.mpr hraw), rfl,
    (hpools.map uid).nodup_iff.mp hids, fun row hrow => ?_⟩, hpools⟩
  exact haccepts row (hpools.mem_iff.mpr hrow)

end Admits

end Python
