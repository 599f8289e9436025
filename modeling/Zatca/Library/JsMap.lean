import Mathlib.Data.List.Nodup
import Mathlib.Data.List.Perm.Basic
set_option autoImplicit false

/-! The keyed collection of ECMAScript: at most one entry a key, entries in the order in which
their keys were first inserted, and a `set` on a present key keeps the key's place. -/

namespace JsMap

variable {κ ν μ : Type} [DecidableEq κ]

def setEntry (k : κ) (v : ν) : List (κ × ν) → List (κ × ν)
  | [] => [(k,v)]
  | e :: m => if e.1 = k then (k,v) :: m else e :: setEntry k v m

theorem keys_setEntry (k : κ) (v : ν) (m : List (κ × ν)) :
    (setEntry k v m).map Prod.fst =
      if k ∈ m.map Prod.fst then m.map Prod.fst else m.map Prod.fst ++ [k] := by
  induction m with
  | nil => rfl
  | cons e m ih =>
    by_cases he : e.1 = k
    · simp [setEntry,he]
    · have hk : k ≠ e.1 := fun h => he h.symm
      by_cases hm : k ∈ m.map Prod.fst
      · simp only [setEntry,he,if_false,List.map_cons,ih,List.mem_cons,hm,or_true,if_true]
      · simp only [setEntry,he,if_false,List.map_cons,ih,List.mem_cons,hm,or_false,if_neg hk,
          List.cons_append]

end JsMap

structure JsMap (κ ν : Type) where
  entries : List (κ × ν)
  nodup : (entries.map Prod.fst).Nodup
  deriving DecidableEq

namespace JsMap

variable {κ ν μ : Type}

def empty : JsMap κ ν := ⟨[],List.nodup_nil⟩

def values (m : JsMap κ ν) : List ν := m.entries.map Prod.snd

@[simp] theorem values_empty : (empty : JsMap κ ν).values = [] := rfl

variable [DecidableEq κ]

def get (m : JsMap κ ν) (k : κ) : Option ν := m.entries.lookup k

def set (m : JsMap κ ν) (k : κ) (v : ν) : JsMap κ ν where
  entries := setEntry k v m.entries
  nodup := by
    rw [keys_setEntry]
    by_cases hk : k ∈ m.entries.map Prod.fst
    · rw [if_pos hk]
      exact m.nodup
    · rw [if_neg hk]
      exact List.nodup_append.2 ⟨m.nodup,by simp,fun a ha b hb hab => by simp_all⟩

def delete (m : JsMap κ ν) (k : κ) : JsMap κ ν where
  entries := m.entries.filter (fun e => e.1 ≠ k)
  nodup := m.nodup.sublist (List.filter_sublist.map Prod.fst)

theorem lookup_cons_ite (k : κ) (e : κ × ν) (m : List (κ × ν)) :
    (e :: m).lookup k = if k = e.1 then some e.2 else m.lookup k := by
  obtain ⟨k',v⟩ := e
  by_cases h : k = k'
  · simp [h]
  · have hb : (k == k') = false := by simpa using h
    simp [List.lookup_cons,hb,h]

theorem lookup_setEntry (k l : κ) (v : ν) (m : List (κ × ν)) :
    (setEntry k v m).lookup l = if l = k then some v else m.lookup l := by
  induction m with
  | nil => simp [setEntry,lookup_cons_ite]
  | cons e m ih =>
    by_cases he : e.1 = k
    · simp only [setEntry,he,if_true,lookup_cons_ite]
      split
      · rfl
      · rfl
    · simp only [setEntry,he,if_false,lookup_cons_ite,ih]
      by_cases hl : l = e.1
      · have hk : l ≠ k := fun h => he (hl ▸ h)
        simp [hl,he]
      · simp [hl]

@[simp] theorem get_empty (k : κ) : (empty : JsMap κ ν).get k = none := rfl

@[simp] theorem get_set_self (m : JsMap κ ν) (k : κ) (v : ν) : (m.set k v).get k = some v := by
  simp [get,set,lookup_setEntry]

theorem get_set_ne (m : JsMap κ ν) {k l : κ} (v : ν) (h : l ≠ k) :
    (m.set k v).get l = m.get l := by
  simp [get,set,lookup_setEntry,h]

theorem get_set (m : JsMap κ ν) (k l : κ) (v : ν) :
    (m.set k v).get l = if l = k then some v else m.get l := lookup_setEntry k l v m.entries

theorem lookup_filter_ne (k l : κ) (m : List (κ × ν)) :
    (m.filter (fun e => e.1 ≠ k)).lookup l = if l = k then none else m.lookup l := by
  induction m with
  | nil => simp
  | cons e m ih =>
    by_cases he : e.1 = k
    · rw [List.filter_cons_of_neg (by simpa using he),ih,lookup_cons_ite,he]
      split
      · rfl
      · rfl
    · rw [List.filter_cons_of_pos (by simpa using he),lookup_cons_ite,lookup_cons_ite,ih]
      by_cases hl : l = e.1
      · simp [hl,he]
      · simp [hl]

@[simp] theorem get_delete_self (m : JsMap κ ν) (k : κ) : (m.delete k).get k = none := by
  simp only [get,delete,lookup_filter_ne,if_true]

theorem get_delete (m : JsMap κ ν) (k l : κ) :
    (m.delete k).get l = if l = k then none else m.get l := lookup_filter_ne k l m.entries

theorem get_delete_ne (m : JsMap κ ν) {k l : κ} (h : l ≠ k) : (m.delete k).get l = m.get l := by
  simp only [get,delete,lookup_filter_ne,if_neg h]

theorem lookup_eq_some_iff {m : List (κ × ν)} (h : (m.map Prod.fst).Nodup) {k : κ} {v : ν} :
    m.lookup k = some v ↔ (k,v) ∈ m := by
  induction m with
  | nil => simp
  | cons e m ih =>
    obtain ⟨k',v'⟩ := e
    simp only [List.map_cons,List.nodup_cons] at h
    rw [lookup_cons_ite]
    by_cases hk : k = k'
    · subst hk
      have hv : (k,v) ∉ m := fun hm => h.1 (List.mem_map_of_mem hm)
      simp [hv,eq_comm]
    · simp [hk,ih h.2]

theorem mem_entries_iff {m : JsMap κ ν} {k : κ} {v : ν} : (k,v) ∈ m.entries ↔ m.get k = some v :=
  (lookup_eq_some_iff m.nodup).symm

theorem mem_values_iff {m : JsMap κ ν} {v : ν} : v ∈ m.values ↔ ∃ k, m.get k = some v := by
  simp only [values,List.mem_map,Prod.exists,exists_eq_right,mem_entries_iff]

theorem lookup_map_snd (f : ν → μ) (k : κ) (m : List (κ × ν)) :
    (m.map (fun e => (e.1,f e.2))).lookup k = (m.lookup k).map f := by
  induction m with
  | nil => rfl
  | cons e m ih =>
    rw [List.map_cons,lookup_cons_ite,lookup_cons_ite,ih]
    by_cases hk : k = e.1
    · simp [hk]
    · simp [hk]

theorem setEntry_of_lookup_none {k : κ} (v : ν) {m : List (κ × ν)} (h : m.lookup k = none) :
    setEntry k v m = m ++ [(k,v)] := by
  induction m with
  | nil => rfl
  | cons e m ih =>
    rw [lookup_cons_ite] at h
    split at h
    · cases h
    · rename_i hk
      simp [setEntry,Ne.symm hk,ih h]

theorem values_set_of_none {m : JsMap κ ν} {k : κ} (v : ν) (h : m.get k = none) :
    (m.set k v).values = m.values ++ [v] := by
  simp [values,set,setEntry_of_lookup_none v h]

theorem map_setEntry_of_lookup {k : κ} {v v' : ν} {f : ν → μ} (hf : f v' = f v)
    {m : List (κ × ν)} (h : m.lookup k = some v) :
    (setEntry k v' m).map (fun e => f e.2) = m.map (fun e => f e.2) := by
  induction m with
  | nil => simp at h
  | cons e m ih =>
    rw [lookup_cons_ite] at h
    split at h
    · rename_i hk
      cases h
      simp [setEntry,hk,hf]
    · rename_i hk
      simp [setEntry,Ne.symm hk,ih h]

theorem setEntry_of_notMem {k : κ} (v : ν) {m : List (κ × ν)} (h : k ∉ m.map Prod.fst) :
    m.map (fun e => if e.1 = k then (k,v) else e) = m := by
  induction m with
  | nil => rfl
  | cons e m ih =>
    simp only [List.map_cons,List.mem_cons,not_or] at h
    simp [Ne.symm h.1,ih h.2]

theorem setEntry_of_lookup_some {k : κ} {v v' : ν} {m : List (κ × ν)}
    (hm : (m.map Prod.fst).Nodup) (h : m.lookup k = some v) :
    setEntry k v' m = m.map (fun e => if e.1 = k then (k,v') else e) := by
  induction m with
  | nil => simp at h
  | cons e m ih =>
    rw [List.map_cons,List.nodup_cons] at hm
    rw [lookup_cons_ite] at h
    split at h
    · rename_i hk
      subst hk
      simp [setEntry,setEntry_of_notMem v' hm.1]
    · rename_i hk
      simp [setEntry,Ne.symm hk,ih hm.2 h]

/-- A `set` on a present key changes the value under that key and nothing else. -/
theorem values_set_of_some {m : JsMap κ ν} {k : κ} {v v' : ν} (h : m.get k = some v)
    {p : ν → Prop} [DecidablePred p] (hp : ∀ l w, m.get l = some w → (p w ↔ l = k)) :
    (m.set k v').values = m.values.map (fun w => if p w then v' else w) := by
  unfold values set
  simp only [setEntry_of_lookup_some m.nodup h,List.map_map]
  refine List.map_congr_left fun e he => ?_
  have hw := hp e.1 e.2 (mem_entries_iff.1 he)
  by_cases hk : e.1 = k
  · simp [hk,hw.2 hk]
  · simp [hk,mt hw.1 hk]

/-- Where every value knows its own key, looking a key up is searching the values for it. -/
theorem find_values_eq_get {m : JsMap κ ν} {key : ν → κ}
    (hkey : ∀ k v, m.get k = some v → key v = k) (k : κ) :
    m.values.find? (fun v => key v = k) = m.get k := by
  cases hg : m.get k with
  | none =>
    rw [List.find?_eq_none]
    intro v hv
    obtain ⟨l,hl⟩ := mem_values_iff.1 hv
    have := hkey l v hl
    intro hk
    simp only [decide_eq_true_eq] at hk
    rw [← hk,this,hl] at hg
    cases hg
  | some v =>
    cases hf : m.values.find? (fun v => key v = k) with
    | none =>
      rw [List.find?_eq_none] at hf
      have := hf v (mem_values_iff.2 ⟨k,hg⟩)
      simp [hkey k v hg] at this
    | some w =>
      have hw := List.mem_of_find?_eq_some hf
      have hwk : key w = k := by simpa using List.find?_some hf
      obtain ⟨l,hl⟩ := mem_values_iff.1 hw
      rw [← hwk,hkey l w hl,hl] at hg
      exact hg

theorem map_key_values {m : JsMap κ ν} {key : ν → κ}
    (hkey : ∀ k v, m.get k = some v → key v = k) : m.values.map key = m.entries.map Prod.fst := by
  unfold values
  rw [List.map_map]
  refine List.map_congr_left fun e he => ?_
  exact hkey e.1 e.2 (mem_entries_iff.1 he)

/-- Overwriting a value leaves every column of the map that the old and new value share. -/
theorem map_values_set {m : JsMap κ ν} {k : κ} {v v' : ν} {f : ν → μ} (h : m.get k = some v)
    (hf : f v' = f v) : (m.set k v').values.map f = m.values.map f := by
  simpa [values,set,Function.comp_def] using map_setEntry_of_lookup hf h

end JsMap
