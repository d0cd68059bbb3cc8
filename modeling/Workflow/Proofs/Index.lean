import Mathlib.Data.List.Nodup
import Workflow.Value

/-!
# Indexes

An index has one entry for each name, the last one that was put there. In a list with distinct keys each key finds its
own item.
-/

namespace Workflow

theorem find?_keyed {α : Type} {key : α → String} {as : List α} {name : String} {a : α} (hn : (as.map key).Nodup) :
    (as.find? fun a => key a == name) = some a ↔ a ∈ as ∧ key a = name := by
  constructor
  · intro h
    exact ⟨List.mem_of_find?_eq_some h, by simpa using List.find?_some h⟩
  · rintro ⟨ha, rfl⟩
    cases h : as.find? fun b => key b == key a with
    | none => simpa using List.find?_eq_none.mp h a ha
    | some b =>
      have hb : key b = key a := by simpa using List.find?_some h
      rw [List.inj_on_of_nodup_map hn (List.mem_of_find?_eq_some h) ha hb]

namespace Index

section
variable {α β : Type} {name : String} {index : Index α}

theorem put_of_not_mem (h : name ∉ index.names) (a : α) :
    index.put name a = index ++ [(name, a)] := by
  induction index with
  | nil => rfl
  | cons e index ih =>
    simp only [names, List.map_cons, List.mem_cons, not_or] at h
    rw [put, if_neg (Ne.symm h.1), ih h.2, List.cons_append]

theorem foldl_put {name : β → String} {value : β → α} {bs : List β} {index : Index α}
    (h : (index.names ++ bs.map name).Nodup) :
    bs.foldl (fun index b => index.put (name b) (value b)) index = index ++ bs.map fun b => (name b, value b) := by
  induction bs generalizing index with
  | nil => simp
  | cons b bs ih =>
    rw [List.map_cons] at h
    have hb : name b ∉ index.names := fun hm => (List.nodup_append.mp h).2.2 _ hm _ (by simp) rfl
    rw [List.foldl_cons, put_of_not_mem hb, ih, List.append_assoc, List.map_cons, List.singleton_append]
    simpa [names] using h

/-- An index of declarations with distinct names is the list of them with their names. -/
theorem of_eq_map {name : α → String} {as : List α} (h : (as.map name).Nodup) :
    of name as = as.map fun a => (name a, a) := by
  unfold of
  rw [foldl_put (by simpa [names] using h), List.nil_append]

theorem ofEntries_of_nodup {es : List (String × α)} (h : (names es).Nodup) : ofEntries es = es := by
  have hfold : ofEntries es = [] ++ es.map fun e => (e.1, e.2) := foldl_put h
  simpa using hfold

theorem mem_put {a : α} {e : String × α} (h : e ∈ index.put name a) : e = (name, a) ∨ e ∈ index := by
  induction index with
  | nil => exact .inl (List.mem_singleton.mp h)
  | cons f index ih =>
    rw [put] at h
    split at h
    · rename_i hn
      obtain rfl | h := List.mem_cons.mp h
      · exact .inl (by rw [hn])
      · exact .inr (List.mem_cons_of_mem f h)
    · obtain rfl | h := List.mem_cons.mp h
      · exact .inr List.mem_cons_self
      · exact (ih h).imp_right (List.mem_cons_of_mem f)

theorem nodup_put {a : α} (h : index.names.Nodup) : (index.put name a).names.Nodup := by
  induction index with
  | nil => simp [put, names]
  | cons e index ih =>
    obtain ⟨he, hi⟩ := List.nodup_cons.mp h
    rw [put]
    split
    · exact List.nodup_cons.mpr ⟨he, hi⟩
    · rename_i hn
      refine List.nodup_cons.mpr ⟨?_, ih hi⟩
      intro hm
      obtain ⟨f, hf, hfe⟩ := List.mem_map.mp hm
      obtain rfl | hf := mem_put hf
      · exact hn hfe.symm
      · exact he (hfe ▸ List.mem_map_of_mem hf)

theorem mem_foldl_put {es : List (String × α)} {e : String × α} (h : e ∈ es.foldl (fun index e => put e.1 e.2 index) index) :
    e ∈ index ∨ e ∈ es := by
  induction es generalizing index with
  | nil => exact .inl h
  | cons f es ih =>
    obtain hput | hes := ih h
    · obtain rfl | hi := mem_put hput
      · exact .inr List.mem_cons_self
      · exact .inl hi
    · exact .inr (List.mem_cons_of_mem f hes)

theorem nodup_foldl_put {es : List (String × α)} (h : index.names.Nodup) :
    (names (es.foldl (fun index e => put e.1 e.2 index) index)).Nodup := by
  induction es generalizing index with
  | nil => exact h
  | cons e es ih => exact ih (nodup_put h)

theorem mem_ofEntries {es : List (String × α)} {e : String × α} (h : e ∈ ofEntries es) : e ∈ es := by
  simpa using mem_foldl_put h

theorem nodup_ofEntries (es : List (String × α)) : (names (ofEntries es)).Nodup := nodup_foldl_put List.nodup_nil

end

end Index

end Workflow
