import ChatBot.NameMap
import Mathlib.Data.Fintype.EquivFin
import Mathlib.Data.List.Sort

/-!
# Maps made from lists

A map made from a list in which no name occurs twice holds the entries of the list and nothing else.
-/

set_option autoImplicit false

namespace ChatBot.NameMap

variable {α : Type}

/-- The names in the listing of a map are different. -/
theorem nodup_names (m : NameMap α) : (m.toList.map (·.1)).Nodup := by
  refine List.pairwise_map.2 (m.distinct_keys_toList.imp ?_)
  intro a b hne heq
  exact hne (Std.LawfulEqCmp.compare_eq_iff_eq.2 heq)

/-- If no name occurs twice, a map has just the entries that it is made of. -/
theorem getElem?_ofList {entries : List (String × α)} (distinct : (entries.map (·.1)).Nodup)
    {name : String} {a : α} : (ofList entries)[name]? = some a ↔ (name, a) ∈ entries := by
  have hofList : ofList entries = Std.ExtTreeMap.ofList entries :=
    Std.ExtTreeMap.ofList_eq_foldl.symm
  have hpairwise : entries.Pairwise fun a b => ¬ compare a.1 b.1 = .eq := by
    refine (List.pairwise_map.1 distinct).imp ?_
    intro a b hne heq
    exact hne (Std.LawfulEqCmp.eq_of_compare heq)
  have hget {b : α} (hb : (name, b) ∈ entries) : (ofList entries)[name]? = some b := by
    rw [hofList]
    exact Std.ExtTreeMap.getElem?_ofList_of_mem Std.ReflCmp.compare_self hpairwise hb
  constructor
  · intro h
    -- the name occurs in the list, and what stands there is what is found
    have hname : name ∈ entries.map (·.1) := by
      refine Decidable.byContradiction fun hnot => ?_
      rw [hofList, Std.ExtTreeMap.getElem?_ofList_of_contains_eq_false (by simpa using hnot)] at h
      cases h
    obtain ⟨⟨_, b⟩, hb, rfl⟩ := List.mem_map.1 hname
    rw [hget hb] at h
    cases h
    exact hb
  · exact hget

/-- A map is listed in the order of the names. -/
theorem toList_ofList {entries ordered : List (String × α)}
    (distinct : (entries.map (·.1)).Nodup)
    (sorted : ordered.Pairwise fun a b => compare a.1 b.1 = .lt)
    (same : ∀ e, e ∈ entries ↔ e ∈ ordered) : (ofList entries).toList = ordered := by
  have hlisted : (ofList entries).toList.Pairwise fun a b => compare a.1 b.1 = .lt :=
    Std.ExtTreeMap.ordered_keys_toList
  have irreflexive (name : String) : compare name name = .eq := Std.ReflCmp.compare_self
  have hnodup {l : List (String × α)} (h : l.Pairwise fun a b => compare a.1 b.1 = .lt) :
      l.Nodup := by
    refine h.imp fun {a b} hlt heq => ?_
    rw [heq, irreflexive] at hlt
    cases hlt
  refine List.Perm.eq_of_pairwise (fun a b _ _ hab hba => ?_) hlisted sorted ?_
  · have hirrefl := Std.TransCmp.lt_trans hab hba
    rw [irreflexive] at hirrefl
    cases hirrefl
  · refine (List.perm_ext_iff_of_nodup (hnodup hlisted) (hnodup sorted)).2 fun e => ?_
    rw [← same e, ← getElem?_ofList distinct]
    exact Std.ExtTreeMap.mem_toList_iff_getElem?_eq_some

/-- Some name has no value. -/
theorem exists_getElem?_eq_none (m : NameMap α) : ∃ name : String, m[name]? = none := by
  obtain ⟨name, hname⟩ := Infinite.exists_notMem_finset m.keys.toFinset
  refine ⟨name, Std.ExtTreeMap.getElem?_eq_none fun hmem => hname ?_⟩
  exact List.mem_toFinset.2 (Std.ExtTreeMap.mem_keys.2 hmem)

end ChatBot.NameMap
