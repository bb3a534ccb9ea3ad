import Std.Data.ExtTreeMap
import Mathlib.Tactic.SplitIfs

/-!
# Look-ups

What a map holds after one entry was written or erased, for keys whose order tells them apart; and
what the lists of a map's entries and values hold (`mem_values`, `values_pairwise`,
`values_erase`).
-/

namespace IndexPools

open Std

variable {α β : Type} [Ord α] [TransOrd α]

theorem values_eq (m : ExtTreeMap α β) : m.values = m.toList.map Prod.snd := by
  obtain ⟨m⟩ := m
  induction m using ExtDTreeMap.inductionOn with
  | mk m =>
    show m.inner.values = (DTreeMap.Internal.Impl.Const.toList m.inner).map Prod.snd
    rw [DTreeMap.Internal.Impl.values_eq_map_snd,
      DTreeMap.Internal.Impl.Const.toList_eq_toListModel_map, List.map_map]
    rfl

theorem mem_iff_lookup {m : ExtTreeMap α β} {k : α} : k ∈ m ↔ ∃ v, m[k]? = some v := by
  rw [ExtTreeMap.mem_iff_isSome_getElem?, Option.isSome_iff_exists]

variable [LawfulEqOrd α]

theorem mem_values {m : ExtTreeMap α β} {v : β} : v ∈ m.values ↔ ∃ k : α, m[k]? = some v := by
  rw [values_eq, List.mem_map]
  constructor
  · rintro ⟨⟨k, w⟩, hm, rfl⟩
    exact ⟨k, ExtTreeMap.mem_toList_iff_getElem?_eq_some.1 hm⟩
  · rintro ⟨k, h⟩
    exact ⟨(k, v), ExtTreeMap.mem_toList_iff_getElem?_eq_some.2 h, rfl⟩

theorem nodup_toList (m : ExtTreeMap α β) : m.toList.Nodup :=
  m.distinct_keys_toList.imp fun h heq => h (Std.compare_eq_iff_eq.2 (congrArg Prod.fst heq))

/-- Values that carry their own key are listed once each. -/
theorem values_pairwise {m : ExtTreeMap α β} {key : β → α}
    (hkey : ∀ k v, m[k]? = some v → key v = k) :
    m.values.Pairwise fun v w => key v ≠ key w := by
  rw [values_eq, List.pairwise_map]
  refine ExtTreeMap.distinct_keys_toList.imp_of_mem ?_
  rintro ⟨k, v⟩ ⟨k', w⟩ hv hw hne e
  rw [ExtTreeMap.mem_toList_iff_getElem?_eq_some] at hv hw
  rw [hkey k v hv, hkey k' w hw] at e
  exact hne (Std.compare_eq_iff_eq.2 e)

/-- Values that carry their own key are listed in the order of the keys. -/
theorem map_key_values {m : ExtTreeMap α β} {key : β → α}
    (hkey : ∀ k v, m[k]? = some v → key v = k) : m.values.map key = m.keys := by
  rw [values_eq, ← ExtTreeMap.map_fst_toList_eq_keys, List.map_map]
  refine List.map_congr_left fun p hp => ?_
  exact hkey p.1 p.2 (ExtTreeMap.mem_toList_iff_getElem?_eq_some.1 hp)

/-- Maps with the same keys list them alike. -/
theorem keys_congr {γ : Type} {m : ExtTreeMap α β} {m' : ExtTreeMap α γ}
    (h : ∀ k, k ∈ m ↔ k ∈ m') : m.keys = m'.keys := by
  have hperm : m.keys.Perm m'.keys := by
    rw [List.perm_ext_iff_of_nodup ExtTreeMap.nodup_keys ExtTreeMap.nodup_keys]
    exact fun k => ExtTreeMap.mem_keys.trans ((h k).trans ExtTreeMap.mem_keys.symm)
  refine hperm.eq_of_pairwise (fun a b _ _ hlt hgt => ?_) m.ordered_keys m'.ordered_keys
  rw [← OrientedCmp.gt_iff_lt, hlt] at hgt
  cases hgt

variable [DecidableEq α]

theorem lookup_insert (m : ExtTreeMap α β) (k a : α) (v : β) :
    (m.insert k v)[a]? = if k = a then some v else m[a]? := by
  rw [ExtTreeMap.getElem?_insert]
  simp only [Std.compare_eq_iff_eq]

theorem lookup_insert_eq_none {m : ExtTreeMap α β} {k a : α} {v : β} :
    (m.insert k v)[a]? = none ↔ a ≠ k ∧ m[a]? = none := by
  rw [lookup_insert]
  split_ifs with h
  · simp [h]
  · simp [Ne.symm h]

/-- A record under a free key is all that an insertion adds. -/
theorem lookup_insert_eq_some {m : ExtTreeMap α β} {k a : α} {v w : β} (hk : m[k]? = none) :
    (m.insert k v)[a]? = some w ↔ m[a]? = some w ∨ (a, w) = (k, v) := by
  rw [lookup_insert]
  split_ifs with h
  · simp [← h, hk, eq_comm]
  · simp [Ne.symm h]

theorem lookup_erase (m : ExtTreeMap α β) (k a : α) :
    (m.erase k)[a]? = if k = a then none else m[a]? := by
  rw [ExtTreeMap.getElem?_erase]
  simp only [Std.compare_eq_iff_eq]

/-- Writing what is there changes nothing. -/
theorem insert_of_lookup {m : ExtTreeMap α β} {k : α} {v : β} (h : m[k]? = some v) :
    m.insert k v = m := by
  refine ExtTreeMap.ext_getElem? fun a => ?_
  rw [lookup_insert]
  split
  · next e => rw [← e, h]
  · rfl

theorem erase_insert {m : ExtTreeMap α β} {k a : α} (h : a ≠ k) (v : β) :
    (m.erase k).insert a v = (m.insert a v).erase k := by
  refine ExtTreeMap.ext_getElem? fun b => ?_
  simp only [lookup_insert, lookup_erase]
  split_ifs with ha hk
  · exact absurd (ha.trans hk.symm) h
  · rfl
  · rfl
  · rfl

theorem erase_erase (m : ExtTreeMap α β) (k a : α) :
    (m.erase k).erase a = (m.erase a).erase k := by
  refine ExtTreeMap.ext_getElem? fun b => ?_
  simp only [lookup_erase]
  split_ifs <;> rfl

/-- Values that carry their own key are listed without the value of an erased key. -/
theorem values_erase {m : ExtTreeMap α β} {key : β → α}
    (hkey : ∀ k v, m[k]? = some v → key v = k) (k : α) :
    (m.erase k).values = m.values.filter fun v => key v ≠ k := by
  have herase : m.erase k = m.filter fun a _ => a ≠ k := by
    refine ExtTreeMap.ext_getElem? fun a => ?_
    rw [lookup_erase, ExtTreeMap.getElem?_filter']
    split_ifs with e
    · simp [← e]
    · simp only [ne_eq, Ne.symm e, not_false_eq_true, decide_true]
      rcases m[a]? with _ | v <;> rfl
  rw [herase, values_eq, values_eq, ExtTreeMap.toList_filter, List.filter_map]
  refine congrArg (List.map Prod.snd) (List.filter_congr fun ⟨a, v⟩ h => ?_)
  simp only [Function.comp_apply, hkey a v (ExtTreeMap.mem_toList_iff_getElem?_eq_some.1 h)]

end IndexPools
