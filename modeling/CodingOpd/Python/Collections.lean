import Mathlib.Algebra.BigOperators.Ring.Finset
import Mathlib.Data.Finset.Sort
import Mathlib.Data.List.Induction
import Mathlib.Data.String.Basic
import CodingOpd.Library.RankedSort

/-!
# Python collections

A dictionary with string keys is the list of its items in the order of insertion. The rows of a
table are grouped by a key into a dictionary of lists, as with `defaultdict(list)`. A set is
iterated in an order of its own.

## Main definitions

* `Dict ν`: dictionaries, with `Dict.setItem`, `Dict.update` and `Dict.sortedKeys`
* `groupBy`: the rows of each key
* `slice`: `xs[:stop]`
* `SetOrder`: the order in which sets are iterated

## Main results

* `getD_groupBy`: a group holds the rows of its key, in their order
* `Dict.sortedKeys_eq_of_perm`: the sorted keys do not depend on the order of insertion
* `Dict.update_eq_append`: what an update with fresh keys holds
-/

open RankedSort

namespace Python

/-- A dictionary with string keys: its items, in the order of insertion. -/
abbrev Dict (ν : Type) := List (String × ν)

namespace Dict

variable {ν μ : Type}

/-- The keys, in the order of insertion. -/
def keys (d : Dict ν) : List String := d.map Prod.fst

/-- `d[key]`, for a key that is there. -/
def getD (d : Dict ν) (key : String) (default : ν) : ν := (d.lookup key).getD default

/-- `{key: f(value) for key, value in d.items()}` -/
def mapValues (f : ν → μ) (d : Dict ν) : Dict μ := d.map fun item => (item.1, f item.2)

/-- `{key: f(key) for key in keys}`, for keys without repetitions. -/
def ofKeys (keys : List String) (f : String → ν) : Dict ν := keys.map fun key => (key, f key)

/-- `d[key] = value` -/
def setItem (key : String) (value : ν) : Dict ν → Dict ν
  | [] => [(key, value)]
  | (k, v) :: d => if k = key then (k, value) :: d else (k, v) :: setItem key value d

/-- `d.update(items)`; of the empty dictionary, `{key: value for key, value in items}`. -/
def update (d items : Dict ν) : Dict ν := items.foldl (fun d item => d.setItem item.1 item.2) d

/-- `dict(sorted(d.items()))`: the keys are distinct, so that they decide the order. -/
def sortItems (d : Dict ν) : Dict ν := sortBy Prod.fst d

/-- `sorted(d)` -/
def sortedKeys (d : Dict ν) : List String := sortBy id d.keys

@[simp] theorem keys_mapValues (f : ν → μ) (d : Dict ν) : (d.mapValues f).keys = d.keys := by
  simp [keys, mapValues]

@[simp] theorem keys_ofKeys (keys : List String) (f : String → ν) :
    (ofKeys keys f).keys = keys := by
  simp [Dict.keys, ofKeys, Function.comp_def]

@[simp] theorem sortedKeys_mapValues (f : ν → μ) (d : Dict ν) :
    (d.mapValues f).sortedKeys = d.sortedKeys := by
  rw [sortedKeys, keys_mapValues, sortedKeys]

@[simp] theorem mem_sortedKeys {d : Dict ν} {key : String} : key ∈ d.sortedKeys ↔ key ∈ d.keys :=
  mem_sortBy

theorem nodup_sortedKeys {d : Dict ν} : d.sortedKeys.Nodup ↔ d.keys.Nodup := nodup_sortBy

theorem sortedKeys_perm (d : Dict ν) : d.sortedKeys.Perm d.keys := sortBy_perm id d.keys

/-- **The sorted keys do not depend on the order of insertion.** -/
theorem sortedKeys_eq_of_perm {d : Dict ν} {e : Dict μ} (h : d.keys.Perm e.keys) :
    d.sortedKeys = e.sortedKeys :=
  sortBy_eq_of_perm h fun _ _ _ _ heq => heq

theorem lookup_cons (k : String) (value : ν) (d : Dict ν) (key : String) :
    List.lookup key ((k, value) :: d) = if key = k then some value else List.lookup key d := by
  rw [List.lookup_cons]
  by_cases hk : key = k
  · simp [hk]
  · rw [beq_false_of_ne hk, if_neg hk]

theorem lookup_ofKeys {keys : List String} {f : String → ν} {key : String} (h : key ∈ keys) :
    (ofKeys keys f).lookup key = some (f key) := by
  induction keys with
  | nil => cases h
  | cons k keys ih =>
    show List.lookup key ((k, f k) :: ofKeys keys f) = _
    rw [lookup_cons]
    split
    case isTrue hk => rw [hk]
    case isFalse hk => exact ih ((List.mem_cons.mp h).resolve_left hk)

theorem getD_ofKeys {keys : List String} {f : String → ν} {key : String} (h : key ∈ keys)
    (default : ν) : (ofKeys keys f).getD key default = f key := by
  rw [getD, lookup_ofKeys h, Option.getD_some]

theorem exists_lookup {d : Dict ν} {key : String} (h : key ∈ d.keys) :
    ∃ value, d.lookup key = some value := by
  induction d with
  | nil => cases h
  | cons item d ih =>
    obtain ⟨k, value⟩ := item
    rw [lookup_cons]
    split
    case isTrue => exact ⟨value, rfl⟩
    case isFalse hk => exact ih ((List.mem_cons.mp h).resolve_left hk)

/-- In a dictionary, a key has one value. -/
theorem lookup_eq_some_iff {d : Dict ν} (hnodup : d.keys.Nodup) {key : String} {value : ν} :
    d.lookup key = some value ↔ (key, value) ∈ d := by
  induction d with
  | nil => exact ⟨fun h => (nomatch h), fun h => (nomatch h)⟩
  | cons item d ih =>
    obtain ⟨k, v⟩ := item
    obtain ⟨hk, hnodup⟩ := List.nodup_cons.mp hnodup
    rw [lookup_cons, List.mem_cons]
    split
    case isTrue heq =>
      subst heq
      constructor
      · rintro ⟨rfl⟩
        exact Or.inl rfl
      · rintro (heq | hmem)
        · rw [(Prod.mk.inj heq).2]
        · exact absurd (List.mem_map_of_mem hmem) hk
    case isFalse hne =>
      rw [ih hnodup, or_iff_right]
      exact fun heq => hne (Prod.mk.inj heq).1

theorem lookup_mapValues (f : ν → μ) (d : Dict ν) (key : String) :
    (d.mapValues f).lookup key = (d.lookup key).map f := by
  induction d with
  | nil => rfl
  | cons item d ih =>
    obtain ⟨k, value⟩ := item
    show List.lookup key ((k, f value) :: mapValues f d) = _
    rw [lookup_cons, lookup_cons]
    split
    · rfl
    · exact ih

theorem keys_setItem (key : String) (value : ν) (d : Dict ν) :
    (d.setItem key value).keys = if key ∈ d.keys then d.keys else d.keys ++ [key] := by
  induction d with
  | nil => rfl
  | cons item d ih =>
    obtain ⟨k, v⟩ := item
    have hkeys : keys ((k, v) :: d) = k :: keys d := rfl
    rw [setItem, hkeys]
    by_cases hk : k = key
    · rw [if_pos hk, if_pos (hk ▸ List.mem_cons_self)]
      rfl
    · rw [if_neg hk]
      show k :: (setItem key value d).keys = _
      rw [ih]
      by_cases hmem : key ∈ keys d
      · rw [if_pos hmem, if_pos (List.mem_cons_of_mem k hmem)]
      · have hnew : key ∉ k :: keys d := by
          rintro (_ | ⟨_, h⟩)
          · exact hk rfl
          · exact hmem h
        rw [if_neg hmem, if_neg hnew]
        rfl

theorem mem_keys_setItem {key other : String} {value : ν} {d : Dict ν} :
    other ∈ (d.setItem key value).keys ↔ other ∈ d.keys ∨ other = key := by
  rw [keys_setItem]
  split
  case isTrue hmem => exact ⟨Or.inl, fun h => h.elim id fun heq => heq ▸ hmem⟩
  case isFalse => rw [List.mem_append, List.mem_singleton]

theorem lookup_setItem (key : String) (value : ν) (d : Dict ν) (other : String) :
    (d.setItem key value).lookup other = if other = key then some value else d.lookup other := by
  induction d with
  | nil => rw [setItem, lookup_cons]
  | cons item d ih =>
    obtain ⟨k, v⟩ := item
    rw [setItem, lookup_cons]
    by_cases hk : k = key
    · rw [if_pos hk, hk, lookup_cons]
      split
      · rfl
      · rfl
    · rw [if_neg hk, lookup_cons, ih]
      by_cases hother : other = k
      · rw [if_pos hother, if_neg (hother ▸ hk), if_pos hother]
      · rw [if_neg hother, if_neg hother]

/-- Of two values for one key, the later one stays. -/
theorem setItem_setItem (key : String) (value value' : ν) (d : Dict ν) :
    (d.setItem key value).setItem key value' = d.setItem key value' := by
  induction d with
  | nil => simp only [setItem, if_true]
  | cons item d ih =>
    obtain ⟨k, v⟩ := item
    by_cases hk : k = key
    · simp only [setItem, if_pos hk]
    · simp only [setItem, if_neg hk, ih]

theorem nodup_keys_setItem {key : String} {value : ν} {d : Dict ν} (h : d.keys.Nodup) :
    (d.setItem key value).keys.Nodup := by
  rw [keys_setItem]
  split
  · exact h
  · next hmem => exact h.append (List.nodup_singleton key) (List.disjoint_singleton.mpr hmem)

theorem mem_keys_update {d items : Dict ν} {key : String} :
    key ∈ (d.update items).keys ↔ key ∈ d.keys ∨ key ∈ items.keys := by
  induction items generalizing d with
  | nil => exact ⟨Or.inl, fun h => h.elim id fun hmem => nomatch hmem⟩
  | cons item items ih =>
    show key ∈ ((d.setItem item.1 item.2).update items).keys ↔ _
    rw [ih, mem_keys_setItem, or_assoc]
    exact or_congr_right List.mem_cons.symm

/-- A fresh key goes to the end. -/
theorem setItem_of_notMem {key : String} {value : ν} {d : Dict ν} (h : key ∉ d.keys) :
    d.setItem key value = d ++ [(key, value)] := by
  induction d with
  | nil => rfl
  | cons item d ih =>
    obtain ⟨k, v⟩ := item
    obtain ⟨hk, hd⟩ := not_or.mp (mt List.mem_cons.mpr h)
    rw [setItem, if_neg (Ne.symm hk), ih hd]
    rfl

/-- **An update with fresh keys** appends the items. -/
theorem update_eq_append {d items : Dict ν} (h : (d.keys ++ items.keys).Nodup) :
    d.update items = d ++ items := by
  induction items generalizing d with
  | nil => exact (List.append_nil d).symm
  | cons item items ih =>
    have hnew : item.1 ∉ d.keys := fun hmem =>
      List.disjoint_of_nodup_append h hmem List.mem_cons_self
    have hkeys : (d.keys ++ keys (item :: items)) = keys (d ++ [item]) ++ keys items := by
      simp [keys]
    rw [hkeys] at h
    show update (d.setItem item.1 item.2) items = _
    rw [setItem_of_notMem hnew, ih h, List.append_assoc]
    rfl

theorem update_nil_left {items : Dict ν} (h : items.keys.Nodup) : update [] items = items :=
  update_eq_append h

/-- The sorted items do not depend on the order of insertion. -/
theorem sortItems_eq_of_perm {d e : Dict ν} (h : d.Perm e) (hnodup : d.keys.Nodup) :
    d.sortItems = e.sortItems :=
  sortBy_eq_of_perm h fun _ ha _ hb heq => List.inj_on_of_nodup_map hnodup ha hb heq

theorem lookup_sortItems {d : Dict ν} (hnodup : d.keys.Nodup) (key : String) :
    d.sortItems.lookup key = d.lookup key := by
  have hnodup' : d.sortItems.keys.Nodup := ((sortBy_perm _ d).map Prod.fst).nodup_iff.mpr hnodup
  apply Option.ext
  intro value
  rw [lookup_eq_some_iff hnodup', lookup_eq_some_iff hnodup, sortItems, mem_sortBy]

theorem lookup_eq_none {d : Dict ν} {key : String} (h : key ∉ d.keys) : d.lookup key = none := by
  induction d with
  | nil => rfl
  | cons item d ih =>
    obtain ⟨k, value⟩ := item
    obtain ⟨hk, hd⟩ := not_or.mp (mt List.mem_cons.mpr h)
    rw [lookup_cons, if_neg hk]
    exact ih hd

/-- Of an update, each key has the later value. -/
theorem lookup_update {d items : Dict ν} (h : items.keys.Nodup) (key : String) :
    (d.update items).lookup key = (items.lookup key).or (d.lookup key) := by
  induction items generalizing d with
  | nil => rfl
  | cons item items ih =>
    obtain ⟨k, value⟩ := item
    obtain ⟨hk, hnodup⟩ := List.nodup_cons.mp h
    show ((d.setItem k value).update items).lookup key = _
    rw [ih hnodup, lookup_setItem, lookup_cons]
    by_cases hkey : key = k
    · rw [if_pos hkey, if_pos hkey, lookup_eq_none (hkey ▸ hk), Option.none_or, Option.some_or]
    · rw [if_neg hkey, if_neg hkey]

theorem nodup_keys_update {d items : Dict ν} (h : d.keys.Nodup) : (d.update items).keys.Nodup := by
  induction items generalizing d with
  | nil => exact h
  | cons item items ih => exact ih (nodup_keys_setItem h)

/-- The values do not depend on the order of the keys. -/
theorem getD_ofKeys_perm {keys keys' : List String} (hperm : keys.Perm keys') (f : String → ν)
    (key : String) (default : ν) :
    (ofKeys keys f).getD key default = (ofKeys keys' f).getD key default := by
  by_cases hkey : key ∈ keys
  · rw [getD_ofKeys hkey, getD_ofKeys (hperm.mem_iff.mp hkey)]
  · have hkey' : key ∉ keys' := mt hperm.mem_iff.mpr hkey
    rw [getD, getD, lookup_eq_none (by rwa [keys_ofKeys]), lookup_eq_none (by rwa [keys_ofKeys])]

/-- Dictionaries with the same keys and the same values hold the same items. -/
theorem perm_of_lookup {d e : Dict ν} (hkeys : d.keys.Perm e.keys) (hnodup : d.keys.Nodup)
    (hlookup : ∀ key, d.lookup key = e.lookup key) : d.Perm e := by
  have hnodup' := hkeys.nodup_iff.mp hnodup
  apply (List.perm_ext_iff_of_nodup (List.Nodup.of_map _ hnodup) (List.Nodup.of_map _ hnodup')).mpr
  rintro ⟨key, value⟩
  rw [← lookup_eq_some_iff hnodup, hlookup, lookup_eq_some_iff hnodup']

/-- The default of mapped values is the mapped default. -/
theorem getD_mapValues (f : ν → μ) (d : Dict ν) (key : String) (default : ν) :
    (d.mapValues f).getD key (f default) = f (d.getD key default) := by
  rw [getD, lookup_mapValues, getD]
  cases d.lookup key with
  | none => rfl
  | some value => rfl

theorem lookup_eq_some_getD {d : Dict ν} {key : String} (h : key ∈ d.keys) (default : ν) :
    d.lookup key = some (d.getD key default) := by
  obtain ⟨value, hvalue⟩ := exists_lookup h
  rw [getD, hvalue, Option.getD_some]

/-- The value of a key that is there does not depend on the defaults. -/
theorem getD_mapValues_of_mem (f : ν → μ) {d : Dict ν} {key : String} (h : key ∈ d.keys)
    (default : ν) (default' : μ) :
    (d.mapValues f).getD key default' = f (d.getD key default) := by
  rw [getD, lookup_mapValues, lookup_eq_some_getD h default]
  rfl

theorem length_keys (d : Dict ν) : d.keys.length = d.length := List.length_map _

theorem getD_sortItems {d : Dict ν} (hnodup : d.keys.Nodup) (key : String) (default : ν) :
    d.sortItems.getD key default = d.getD key default := by
  rw [getD, lookup_sortItems hnodup, getD]

theorem getD_of_notMem {d : Dict ν} {key : String} (h : key ∉ d.keys) (default : ν) :
    d.getD key default = default := by
  rw [getD, lookup_eq_none h, Option.getD_none]

end Dict

/-! ## Groups -/

section Groups

variable {α : Type}

/-- The rows of a table, grouped by a key: `groups[key].append(row)` for each row, where `groups` is
a `defaultdict(list)`. -/
def groupBy (key : α → String) (rows : List α) : Dict (List α) :=
  rows.foldl (fun groups row => groups.setItem (key row) (groups.getD (key row) [] ++ [row])) []

/-- What grouping holds after the first rows. -/
theorem groupBy_append_singleton (key : α → String) (rows : List α) (row : α) :
    groupBy key (rows ++ [row]) =
      (groupBy key rows).setItem (key row) ((groupBy key rows).getD (key row) [] ++ [row]) := by
  rw [groupBy, List.foldl_append]
  rfl

theorem nodup_keys_groupBy (key : α → String) (rows : List α) : (groupBy key rows).keys.Nodup := by
  induction rows using List.reverseRecOn with
  | nil => exact List.nodup_nil
  | append_singleton rows row ih =>
    rw [groupBy_append_singleton]
    exact Dict.nodup_keys_setItem ih

theorem mem_keys_groupBy {key : α → String} {rows : List α} {k : String} :
    k ∈ (groupBy key rows).keys ↔ k ∈ rows.map key := by
  induction rows using List.reverseRecOn with
  | nil => rfl
  | append_singleton rows row ih =>
    rw [groupBy_append_singleton, Dict.mem_keys_setItem, ih, List.map_append, List.mem_append,
      List.map_singleton, List.mem_singleton]

/-- **A group holds the rows of its key**, in their order. -/
theorem getD_groupBy (key : α → String) (rows : List α) (k : String) :
    (groupBy key rows).getD k [] = rows.filter fun row => key row = k := by
  induction rows using List.reverseRecOn with
  | nil => rfl
  | append_singleton rows row ih =>
    rw [groupBy_append_singleton, Dict.getD, Dict.lookup_setItem, List.filter_append]
    split
    case isTrue hk =>
      subst hk
      rw [Option.getD_some, ih]
      simp
    case isFalse hk =>
      show (groupBy key rows).getD k [] = _
      rw [ih]
      simp [Ne.symm hk]

theorem keys_groupBy_perm (key : α → String) {rows rows' : List α} (hperm : rows.Perm rows') :
    (groupBy key rows).keys.Perm (groupBy key rows').keys := by
  apply (List.perm_ext_iff_of_nodup (nodup_keys_groupBy key rows)
    (nodup_keys_groupBy key rows')).mpr
  intro k
  rw [mem_keys_groupBy, mem_keys_groupBy, (hperm.map key).mem_iff]

theorem getD_groupBy_perm (key : α → String) {rows rows' : List α} (hperm : rows.Perm rows')
    (k : String) : ((groupBy key rows).getD k []).Perm ((groupBy key rows').getD k []) := by
  rw [getD_groupBy, getD_groupBy]
  exact hperm.filter _

/-- A group has rows. -/
theorem length_groupBy_pos {key : α → String} {rows : List α} {k : String}
    (hk : k ∈ (groupBy key rows).keys) : 0 < ((groupBy key rows).getD k []).length := by
  obtain ⟨row, hrow, rfl⟩ := List.mem_map.mp (mem_keys_groupBy.mp hk)
  rw [getD_groupBy]
  exact List.length_pos_of_mem (List.mem_filter.mpr ⟨hrow, decide_eq_true rfl⟩)

/-- The groups share the rows out. -/
theorem sum_length_groupBy (key : α → String) (rows : List α) :
    ((groupBy key rows).keys.map fun k => ((groupBy key rows).getD k []).length).sum =
      rows.length := by
  have hset : (groupBy key rows).keys.toFinset = (rows.map key).toFinset := by
    ext k
    rw [List.mem_toFinset, List.mem_toFinset, mem_keys_groupBy]
  have hcount : ∀ k, ((groupBy key rows).getD k []).length = (rows.map key).count k := by
    intro k
    rw [getD_groupBy, List.count_eq_countP, List.countP_map, List.countP_eq_length_filter]
    rfl
  rw [← List.sum_toFinset _ (nodup_keys_groupBy key rows), hset,
    Finset.sum_congr rfl fun k _ => hcount k, List.sum_toFinset_count_eq_length, List.length_map]

theorem sum_groupLengths (key : α → String) (rows : List α) :
    ((groupBy key rows).keys.map fun k => (((groupBy key rows).getD k []).length : ℤ)).sum =
      rows.length := by
  rw [← sum_length_groupBy key rows, Nat.cast_list_sum, List.map_map]
  rfl

/-- The sizes of the groups: `{key: len(rows) for key, rows in groups.items()}`. -/
def groupSizes (groups : Dict (List α)) : Dict ℤ := groups.mapValues fun rows => (rows.length : ℤ)

@[simp] theorem keys_groupSizes (groups : Dict (List α)) : (groupSizes groups).keys = groups.keys :=
  Dict.keys_mapValues _ _

@[simp] theorem sortedKeys_groupSizes (groups : Dict (List α)) :
    (groupSizes groups).sortedKeys = groups.sortedKeys :=
  Dict.sortedKeys_mapValues _ _

theorem getD_groupSizes (groups : Dict (List α)) (k : String) :
    (groupSizes groups).getD k 0 = (groups.getD k []).length :=
  Dict.getD_mapValues (fun rows : List α => (rows.length : ℤ)) groups k []

/-- The sizes of the groups do not depend on the order of the rows. -/
theorem lookup_groupSizes_perm (key : α → String) {rows rows' : List α} (hperm : rows.Perm rows')
    (k : String) :
    (groupSizes (groupBy key rows)).lookup k = (groupSizes (groupBy key rows')).lookup k := by
  have hkeys : k ∈ (groupSizes (groupBy key rows)).keys ↔
      k ∈ (groupSizes (groupBy key rows')).keys := by
    rw [keys_groupSizes, keys_groupSizes]
    exact (keys_groupBy_perm key hperm).mem_iff
  by_cases hk : k ∈ (groupSizes (groupBy key rows)).keys
  · rw [Dict.lookup_eq_some_getD hk 0, Dict.lookup_eq_some_getD (hkeys.mp hk) 0, getD_groupSizes,
      getD_groupSizes, (getD_groupBy_perm key hperm k).length_eq]
  · rw [Dict.lookup_eq_none hk, Dict.lookup_eq_none (mt hkeys.mpr hk)]

end Groups

/-! ## Dictionaries over a key

In `{key(x): x for x in xs}` the last element of a key is the one that is found. -/

section ByKey

variable {α : Type} {key : α → String} {xs : List α} {k : String}

theorem of_find?_reverse {x : α} (h : xs.reverse.find? (key · = k) = some x) :
    x ∈ xs ∧ key x = k :=
  ⟨List.mem_reverse.mp (List.mem_of_find?_eq_some h), by simpa using List.find?_some h⟩

theorem isSome_find?_reverse (h : k ∈ xs.map key) : (xs.reverse.find? (key · = k)).isSome := by
  obtain ⟨x, hmem, rfl⟩ := List.mem_map.mp h
  rw [List.find?_isSome]
  exact ⟨x, List.mem_reverse.mpr hmem, by simp⟩

end ByKey

/-! ## Slices and sets -/

/-- `xs[:stop]` -/
def slice {α : Type} (xs : List α) (stop : ℤ) : List α :=
  if 0 ≤ stop then xs.take stop.toNat else xs.take (xs.length - (-stop).toNat)

/-- The order in which a set of strings is iterated. It depends on the hashes of the strings and on
how the set was built. -/
structure SetOrder where
  list : Finset String → List String
  nodup : ∀ ids, (list ids).Nodup
  mem : ∀ ids id, id ∈ list ids ↔ id ∈ ids

/-- Sets that are iterated in the order of their strings. -/
def SetOrder.sorted : SetOrder where
  list ids := ids.sort (· ≤ ·)
  nodup ids := ids.sort_nodup (· ≤ ·)
  mem _ _ := Finset.mem_sort (· ≤ ·)

end Python
