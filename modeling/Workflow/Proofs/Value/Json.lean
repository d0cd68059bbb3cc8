import Workflow.Proofs.Template.References

/-!
# JSON values

The values that a document of JSON can hold when its numbers are finite. Whatever a path or a template finds in such
values is such a value again.
-/

namespace Workflow

/-- The scalars of JSON; a number that need not be whole is a finite one of the grid. -/
def Scalar.IsJson : Scalar → Prop
  | null => True
  | bool _ => True
  | int _ => True
  | text _ => True
  | float x => x.isFinite = true ∧ x.WellFormed
  | date _ => False
  | dateTime _ => False
  | bytes _ => False

inductive Value.IsJson : Value → Prop
  | scalar {s : Scalar} : s.IsJson → IsJson (.scalar s)
  | list {items : List Value} : (∀ v ∈ items, IsJson v) → IsJson (.list items)
  | mapping {members : Members} : (∀ m ∈ members, ∃ key, m.1 = .text key) → (∀ m ∈ members, IsJson m.2) →
      IsJson (.mapping members)

namespace Value

theorem IsJson.find? {ms : Members} (h : IsJson (.mapping ms)) {key : Scalar} {v : Value}
    (hf : Members.find? ms key = some v) : v.IsJson := by
  cases h with
  | mapping _ h =>
    obtain ⟨m, hm, rfl⟩ := Option.map_eq_some_iff.mp hf
    exact h m (List.mem_of_find?_eq_some hm)

theorem IsJson.itemAt? {items : List Value} (h : ∀ v ∈ items, IsJson v) {n : Int} {v : Value}
    (hi : itemAt? items n = some v) : v.IsJson := by
  unfold Value.itemAt? at hi
  split at hi
  · exact h v (List.mem_of_getElem? hi)
  · split at hi
    · exact h v (List.mem_of_getElem? hi)
    · cases hi

theorem IsJson.step {v w : Value} (h : v.IsJson) {p : PathStep} (hs : v.step p = .ok (some w)) : w.IsJson := by
  unfold Value.step at hs
  split at hs
  · exact h.find? (Except.ok.inj hs)
  · split at hs
    · rename_i hf
      cases hs
      exact h.find? hf
    · obtain ⟨text, -, hf⟩ := map_eq_ok.mp hs
      exact h.find? hf
  · cases h with
    | list h => exact IsJson.itemAt? h (Except.ok.inj hs)
  · cases h
  · cases hs

theorem IsJson.lookup {v w : Value} (h : v.IsJson) {path : List PathStep} (hl : v.lookup path = .ok (some w)) : w.IsJson := by
  induction path generalizing v with
  | nil =>
    cases hl
    exact h
  | cons p path ih =>
    obtain ⟨u, hu, hr⟩ := bind_eq_ok.mp hl
    cases u with
    | none => cases hr
    | some u => exact ih (h.step hu) hr

theorem isJson_text (s : String) : IsJson (.text s) := .scalar trivial

theorem IsJson.put {ms : Members} (h : IsJson (.mapping ms)) {v : Value} (hv : v.IsJson) (key : String) :
    IsJson (.mapping (Members.put (.text key) v ms)) := by
  cases h with
  | mapping hk hm =>
    induction ms with
    | nil => exact .mapping (by simp [Members.put]) (by simpa [Members.put] using hv)
    | cons m ms ih =>
      obtain ⟨hk, hks⟩ := List.forall_mem_cons.mp hk
      obtain ⟨hm, hms⟩ := List.forall_mem_cons.mp hm
      rw [Members.put]
      split
      · exact .mapping (List.forall_mem_cons.mpr ⟨hk, hks⟩) (List.forall_mem_cons.mpr ⟨hv, hms⟩)
      · cases ih hks hms with
        | mapping hk' hm' =>
          exact .mapping (List.forall_mem_cons.mpr ⟨hk, hk'⟩) (List.forall_mem_cons.mpr ⟨hm, hm'⟩)

end Value

section
variable {context : Members}

theorem Placeholder.valued_isJson {p : Placeholder} (h : Value.IsJson (.mapping context)) {v : Value}
    (hv : p.valued context = .ok (some v)) : v.IsJson := by
  cases hv ▸ p.course context with
  | found hl => exact h.lookup hl
  | fallback => exact Value.isJson_text _

theorem Template.value_isJson {t : Template} (h : Value.IsJson (.mapping context)) {v : Value}
    (hv : t.value context = .ok v) : v.IsJson := by
  obtain ⟨hv, -⟩ := value_ok.mp hv
  unfold valued at hv
  split at hv
  · obtain ⟨o, ho, rfl⟩ := map_eq_ok.mp hv
    cases o with
    | none => exact Value.isJson_text _
    | some v => exact Placeholder.valued_isJson h ho
  · obtain ⟨text, -, rfl⟩ := map_eq_ok.mp hv
    exact Value.isJson_text _

end

end Workflow
