import Mathlib.Data.List.Induction
import Mathlib.Data.List.Nodup
import Mathlib.Logic.Function.Basic
set_option autoImplicit false

/-! The rows of one table, grouped by a key: what a view shows of the rows of each key, in the order
of the table. -/

namespace GroupBy

variable {ρ ν κ ι : Type} [DecidableEq κ] (key : ρ → κ) (view : ρ → ν)

def group (rows : List ρ) (k : κ) : List ν := (rows.filter fun r => key r = k).map view

theorem group_concat (rows : List ρ) (r : ρ) : group key view (rows ++ [r]) =
    Function.update (group key view rows) (key r) (group key view rows (key r) ++ [view r]) := by
  funext k
  by_cases hk : k = key r
  · subst hk
    simp [group]
  · simp [group,hk,Ne.symm hk]

/-- A change to the rows of one key. -/
theorem group_map {rows : List ρ} {k : κ} {f : ρ → ρ} {g : ν → ν} (hkey : ∀ r, key (f r) = key r)
    (hself : ∀ r, key r = k → view (f r) = g (view r)) (hother : ∀ r, key r ≠ k → view (f r) = view r) :
    group key view (rows.map f) =
      Function.update (group key view rows) k ((group key view rows k).map g) := by
  funext k'
  have hrows : (rows.map f).filter (fun r => key r = k') = (rows.filter fun r => key r = k').map f := by
    rw [List.filter_map]
    simp only [Function.comp_def,hkey]
  have hkeys : ∀ r ∈ rows.filter fun r => key r = k', key r = k' := by
    intro r hr
    simpa using (List.mem_filter.1 hr).2
  by_cases hk : k' = k
  · subst hk
    rw [Function.update_self,group,group,hrows,List.map_map,List.map_map]
    exact List.map_congr_left fun r hr => hself r (hkeys r hr)
  · rw [Function.update_of_ne hk,group,group,hrows,List.map_map]
    refine List.map_congr_left fun r hr => hother r ?_
    rw [hkeys r hr]
    exact hk

theorem find?_group (rows : List ρ) (k : κ) (p : ν → Bool) : (group key view rows k).find? p =
    (rows.find? fun r => decide (key r = k) && p (view r)).map view := by
  rw [group,List.find?_map,List.find?_filter]
  simp [Bool.decide_and]

/-- What is unique together with the key is unique in a group. -/
theorem nodup_group {id : ν → ι} {rows : List ρ}
    (h : (rows.map fun r => (key r,id (view r))).Nodup) (k : κ) :
    ((group key view rows k).map id).Nodup := by
  refine List.Nodup.of_map (fun i => (k,i)) ?_
  have hpairs : (((group key view rows k).map id).map fun i => (k,i)) =
      (rows.filter fun r => key r = k).map fun r => (key r,id (view r)) := by
    rw [group,List.map_map,List.map_map]
    refine List.map_congr_left fun r hr => ?_
    have hk : key r = k := by simpa using (List.mem_filter.1 hr).2
    rw [hk]
    rfl
  rw [hpairs]
  exact h.sublist (List.filter_sublist.map _)

/-! ### Entries with the keys of several values -/

section entries

variable {α β : Type} [DecidableEq α]

/-- The values of a key stand where its first one does. -/
def addEntry (gs : List (α × List β)) (e : α × β) : List (α × List β) :=
  match gs with
  | [] => [(e.1,[e.2])]
  | g :: gs => if g.1 = e.1 then (g.1,g.2 ++ [e.2]) :: gs else g :: addEntry gs e

def collect (es : List (α × β)) : List (α × List β) := es.foldl addEntry []

/-- The entries of one group after those of another. -/
def spread (gs : List (α × List β)) : List (α × β) := gs.flatMap fun g => g.2.map fun v => (g.1,v)

theorem mem_addEntry {gs : List (α × List β)} {e : α × β} {g : α × List β}
    (h : g ∈ addEntry gs e) :
    g ∈ gs ∨ g.1 = e.1 ∧ (g.2 = [e.2] ∨ ∃ vs, (e.1,vs) ∈ gs ∧ g.2 = vs ++ [e.2]) := by
  induction gs with
  | nil =>
    rw [addEntry,List.mem_singleton] at h
    subst h
    exact .inr ⟨rfl,.inl rfl⟩
  | cons g' gs ih =>
    rw [addEntry] at h
    split at h
    · rename_i hsame
      rcases List.mem_cons.1 h with rfl | h
      · refine .inr ⟨hsame,.inr ⟨g'.2,?_,rfl⟩⟩
        rw [← hsame]
        exact List.mem_cons_self
      · exact .inl (List.mem_cons_of_mem _ h)
    · rcases List.mem_cons.1 h with rfl | h
      · exact .inl List.mem_cons_self
      · rcases ih h with h | ⟨hsame,h⟩
        · exact .inl (List.mem_cons_of_mem _ h)
        · refine .inr ⟨hsame,h.imp_right ?_⟩
          rintro ⟨vs,hvs,hg⟩
          exact ⟨vs,List.mem_cons_of_mem _ hvs,hg⟩

theorem keys_addEntry (gs : List (α × List β)) (e : α × β) :
    (addEntry gs e).map Prod.fst =
      if e.1 ∈ gs.map Prod.fst then gs.map Prod.fst else gs.map Prod.fst ++ [e.1] := by
  induction gs with
  | nil => rfl
  | cons g gs ih =>
    rw [addEntry]
    by_cases hsame : g.1 = e.1
    · simp [hsame]
    · have hne : e.1 ≠ g.1 := fun h => hsame h.symm
      rw [if_neg hsame,List.map_cons,ih]
      by_cases hmem : e.1 ∈ gs.map Prod.fst
      · have hall : e.1 ∈ (g :: gs).map Prod.fst := List.mem_cons_of_mem _ hmem
        rw [if_pos hmem,if_pos hall]
        rfl
      · rw [if_neg hmem,if_neg (by simpa [hne] using hmem)]
        rfl

/-- What is kept by adding one entry after another holds of the groups. -/
theorem collect_spec {es : List (α × β)} {p : α → Prop} {q : β → Prop}
    (h : ∀ e ∈ es, p e.1 ∧ q e.2) :
    ((collect es).map Prod.fst).Nodup ∧
      ∀ g ∈ collect es, p g.1 ∧ g.2 ≠ [] ∧ ∀ v ∈ g.2, q v := by
  have hrun : ∀ (es : List (α × β)) (gs : List (α × List β)), (∀ e ∈ es, p e.1 ∧ q e.2) →
      (gs.map Prod.fst).Nodup → (∀ g ∈ gs, p g.1 ∧ g.2 ≠ [] ∧ ∀ v ∈ g.2, q v) →
      ((es.foldl addEntry gs).map Prod.fst).Nodup ∧
        ∀ g ∈ es.foldl addEntry gs, p g.1 ∧ g.2 ≠ [] ∧ ∀ v ∈ g.2, q v := by
    intro es
    induction es with
    | nil => exact fun gs _ hnodup hgs => ⟨hnodup,hgs⟩
    | cons e es ih =>
      intro gs hes hnodup hgs
      obtain ⟨he,hes⟩ := List.forall_mem_cons.1 hes
      refine ih (addEntry gs e) hes ?_ fun g hg => ?_
      · rw [keys_addEntry]
        split
        · exact hnodup
        · rename_i hmem
          rw [List.nodup_append]
          refine ⟨hnodup,List.nodup_singleton _,fun k hk k' hk' hsame => hmem ?_⟩
          rw [← List.mem_singleton.1 hk',← hsame]
          exact hk
      · rcases mem_addEntry hg with hg | ⟨hsame,hg | ⟨vs,hvs,hg⟩⟩
        · exact hgs g hg
        · refine ⟨hsame ▸ he.1,by simp [hg],fun v hv => ?_⟩
          rw [hg,List.mem_singleton] at hv
          exact hv ▸ he.2
        · refine ⟨hsame ▸ he.1,by simp [hg],fun v hv => ?_⟩
          rw [hg,List.mem_append,List.mem_singleton] at hv
          rcases hv with hv | hv
          · exact (hgs _ hvs).2.2 v hv
          · exact hv ▸ he.2
  exact hrun es [] h List.nodup_nil (fun g hg => absurd hg List.not_mem_nil)

theorem addEntry_concat {gs : List (α × List β)} {key : α} (h : key ∉ gs.map Prod.fst) (vs : List β)
    (v : β) : addEntry (gs ++ [(key,vs)]) (key,v) = gs ++ [(key,vs ++ [v])] := by
  induction gs with
  | nil => simp [addEntry]
  | cons g gs ih =>
    simp only [List.map_cons,List.mem_cons,not_or] at h
    have hne : g.1 ≠ key := fun hsame => h.1 hsame.symm
    rw [List.cons_append,addEntry,if_neg hne,ih h.2,List.cons_append]

theorem addEntry_new {gs : List (α × List β)} {key : α} (h : key ∉ gs.map Prod.fst) (v : β) :
    addEntry gs (key,v) = gs ++ [(key,[v])] := by
  induction gs with
  | nil => rfl
  | cons g gs ih =>
    simp only [List.map_cons,List.mem_cons,not_or] at h
    have hne : g.1 ≠ key := fun hsame => h.1 hsame.symm
    rw [addEntry,if_neg hne,ih h.2,List.cons_append]

theorem foldl_addEntry {gs : List (α × List β)} {key : α} (h : key ∉ gs.map Prod.fst) {vs : List β}
    (hne : vs ≠ []) : (vs.map fun v => (key,v)).foldl addEntry gs = gs ++ [(key,vs)] := by
  induction vs using List.reverseRecOn with
  | nil => exact absurd rfl hne
  | append_singleton vs v ih =>
    rw [List.map_append,List.foldl_append]
    by_cases hvs : vs = []
    · rw [hvs]
      exact addEntry_new h v
    · rw [ih hvs]
      exact addEntry_concat h vs v

theorem collect_spread {gs : List (α × List β)} (hnodup : (gs.map Prod.fst).Nodup) (hne : ∀ g ∈ gs, g.2 ≠ []) :
    collect (spread gs) = gs := by
  induction gs using List.reverseRecOn with
  | nil => rfl
  | append_singleton gs g ih =>
    obtain ⟨hgs,hg⟩ := List.forall_mem_append.1 hne
    rw [List.map_append,List.nodup_append] at hnodup
    have hnew : g.1 ∉ gs.map Prod.fst := fun hmem =>
      hnodup.2.2 g.1 hmem g.1 (by simp) rfl
    have hprev := ih hnodup.1 hgs
    rw [collect,spread,List.flatMap_append,List.foldl_append]
    rw [collect,spread] at hprev
    rw [hprev,List.flatMap_singleton,foldl_addEntry hnew (hg g List.mem_cons_self)]

end entries

end GroupBy
