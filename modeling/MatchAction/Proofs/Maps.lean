import Mathlib.Data.List.Forall2
import Mathlib.Data.List.Nodup
import Mathlib.Data.List.Perm.Basic
import Std.Data.ExtTreeMap.Lemmas

/-!
# Maps as lists

What a finite map lists, said by what it finds.  Maps with related values under the same keys list
them in the same order.  A map whose keys are renamed, each to a key of its own, lists the same
values, if perhaps in another order.
-/

namespace MatchAction.Maps

open Std

variable {α β γ δ : Type} {cmp : α → α → Ordering} [TransCmp cmp]

theorem values_eq_map_toList (map : ExtTreeMap α γ cmp) : map.values = map.toList.map Prod.snd := by
  obtain ⟨⟨inner⟩⟩ := map
  induction inner using Quotient.inductionOn with
  | h tree =>
      change tree.inner.values = (DTreeMap.Internal.Impl.Const.toList tree.inner).map Prod.snd
      rw [DTreeMap.Internal.Impl.values_eq_map_snd,
        DTreeMap.Internal.Impl.Const.toList_eq_toListModel_map, List.map_map]
      rfl

theorem length_values (map : ExtTreeMap α γ cmp) : map.values.length = map.size := by
  rw [values_eq_map_toList, List.length_map, ExtTreeMap.length_toList]

variable [LawfulEqCmp cmp]

theorem values_eq_filterMap_keys (map : ExtTreeMap α γ cmp) :
    map.values = map.keys.filterMap fun key => map[key]? := by
  rw [values_eq_map_toList, ← ExtTreeMap.map_fst_toList_eq_keys, List.filterMap_map,
    ← List.filterMap_eq_map]
  refine List.filterMap_congr fun pair inside => ?_
  exact (ExtTreeMap.mem_toList_iff_getElem?_eq_some.mp inside).symm

theorem map_getElem?_keys (map : ExtTreeMap α γ cmp) :
    (map.keys.map fun key => map[key]?) = map.values.map some := by
  rw [values_eq_map_toList, ← ExtTreeMap.map_fst_toList_eq_keys, List.map_map, List.map_map]
  refine List.map_congr_left fun pair inside => ?_
  exact ExtTreeMap.mem_toList_iff_getElem?_eq_some.mp inside

theorem mem_values {map : ExtTreeMap α γ cmp} {value : γ} :
    value ∈ map.values ↔ ∃ key : α, map[key]? = some value := by
  rw [values_eq_map_toList, List.mem_map]
  constructor
  · rintro ⟨⟨key, held⟩, inside, rfl⟩
    exact ⟨key, ExtTreeMap.mem_toList_iff_getElem?_eq_some.mp inside⟩
  · rintro ⟨key, held⟩
    exact ⟨(key, value), ExtTreeMap.mem_toList_iff_getElem?_eq_some.mpr held, rfl⟩

theorem keys_congr {first : ExtTreeMap α γ cmp} {second : ExtTreeMap α δ cmp}
    (same : ∀ key : α, first[key]?.isSome = second[key]?.isSome) : first.keys = second.keys := by
  have sameKeys : first.map (fun _ _ => ()) = second.map fun _ _ => () := by
    refine ExtTreeMap.ext_getElem? fun key => ?_
    have sameAt := same key
    rw [ExtTreeMap.getElem?_map, ExtTreeMap.getElem?_map]
    cases one : first[key]? <;> cases two : second[key]? <;> rw [one, two] at sameAt
    · rfl
    · cases sameAt
    · cases sameAt
    · rfl
  rw [← ExtTreeMap.keys_map (t := first) (f := fun _ _ => ()), sameKeys, ExtTreeMap.keys_map]

theorem isSome_eq_of_rel {Related : γ → δ → Prop} {first : Option γ} {second : Option δ}
    (related : Option.Rel Related first second) : first.isSome = second.isSome := by
  cases related <;> rfl

theorem forall₂_values {Related : γ → δ → Prop} {first : ExtTreeMap α γ cmp}
    {second : ExtTreeMap α δ cmp}
    (related : ∀ key : α, Option.Rel Related first[key]? second[key]?) :
    List.Forall₂ Related first.values second.values := by
  have sameKeys : first.keys = second.keys := keys_congr fun key => isSome_eq_of_rel (related key)
  rw [values_eq_filterMap_keys, values_eq_filterMap_keys, sameKeys]
  refine List.rel_filterMap ?_ (List.forall₂_same.mpr fun _ _ => rfl)
  rintro key _ rfl
  exact related key

/-- Maps whose values have the same images under the same keys list the same images. -/
theorem map_values_congr (image : γ → δ) {first second : ExtTreeMap α γ cmp}
    (same : ∀ key : α, first[key]?.map image = second[key]?.map image) :
    first.values.map image = second.values.map image := by
  have sameKeys : first.keys = second.keys := by
    refine keys_congr fun key => ?_
    have sameAt := congrArg Option.isSome (same key)
    rwa [Option.isSome_map, Option.isSome_map] at sameAt
  rw [values_eq_filterMap_keys, values_eq_filterMap_keys, List.map_filterMap, List.map_filterMap,
    sameKeys, funext same]

theorem nodup_toList (map : ExtTreeMap α γ cmp) : map.toList.Nodup := by
  refine ExtTreeMap.distinct_keys_toList.imp ?_
  rintro first second differ rfl
  exact differ ReflCmp.compare_self

/-- Two maps list the same values if one finds under the renamed keys what the other finds. -/
theorem values_perm_of_renamed {cmp' : β → β → Ordering} [TransCmp cmp'] [LawfulEqCmp cmp']
    {renamed : ExtTreeMap β γ cmp'} {map : ExtTreeMap α γ cmp} (rename : α → β)
    (injective : ∀ (first second : α) (value value' : γ), map[first]? = some value →
      map[second]? = some value' → rename first = rename second → first = second)
    (found : ∀ key value, renamed[key]? = some value ↔
      ∃ old, rename old = key ∧ map[old]? = some value) :
    renamed.values.Perm map.values := by
  have listed : renamed.toList.Perm (map.toList.map fun pair => (rename pair.1, pair.2)) := by
    refine (List.perm_ext_iff_of_nodup (nodup_toList renamed) ?_).mpr ?_
    · refine List.Nodup.map_on ?_ (nodup_toList map)
      rintro ⟨first, value⟩ inside ⟨second, value'⟩ inside' same
      obtain ⟨sameKey, sameValue⟩ := Prod.mk.inj same
      exact congr (congrArg Prod.mk (injective first second value value'
        (ExtTreeMap.mem_toList_iff_getElem?_eq_some.mp inside)
        (ExtTreeMap.mem_toList_iff_getElem?_eq_some.mp inside') sameKey)) sameValue
    · rintro ⟨key, value⟩
      rw [ExtTreeMap.mem_toList_iff_getElem?_eq_some, found, List.mem_map]
      constructor
      · rintro ⟨old, rfl, inside⟩
        exact ⟨(old, value), ExtTreeMap.mem_toList_iff_getElem?_eq_some.mpr inside, rfl⟩
      · rintro ⟨⟨old, value'⟩, inside, same⟩
        obtain ⟨sameKey, sameValue⟩ := Prod.mk.inj same
        subst sameValue
        exact ⟨old, sameKey, ExtTreeMap.mem_toList_iff_getElem?_eq_some.mp inside⟩
  rw [values_eq_map_toList, values_eq_map_toList]
  have mapped := listed.map Prod.snd
  rw [List.map_map] at mapped
  exact mapped

end MatchAction.Maps
