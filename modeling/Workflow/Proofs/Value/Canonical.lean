import Workflow.Proofs.Check.Names
import Workflow.Value.Canonical

/-!
# Canonical texts

A value that can be written as JSON has a canonical text exactly if each of its integers is one that a binary number
holds exactly.
-/

namespace Workflow

def IsSafe (n : Int) : Prop := -safeInteger ≤ n ∧ n ≤ safeInteger

/-! ## Integers of a value -/

namespace Json

mutual

def integers : Json → List Int
  | null => []
  | bool _ => []
  | int n => [n]
  | float _ => []
  | text _ => []
  | list items => itemIntegers items
  | mapping ms => memberIntegers ms

def itemIntegers : List Json → List Int
  | [] => []
  | j :: rest => integers j ++ itemIntegers rest

def memberIntegers : List (String × Json) → List Int
  | [] => []
  | (_, j) :: rest => integers j ++ memberIntegers rest

end

theorem itemIntegers_eq (items : List Json) : itemIntegers items = items.flatMap integers := by
  induction items with
  | nil => rfl
  | cons j items ih => rw [itemIntegers, ih, List.flatMap_cons]

theorem memberIntegers_eq (ms : List (String × Json)) : memberIntegers ms = ms.flatMap fun m => m.2.integers := by
  induction ms with
  | nil => rfl
  | cons m ms ih => rw [memberIntegers, ih, List.flatMap_cons]

theorem put_eq (key : String) (j : Json) (ms : List (String × Json)) : put key j ms = Index.put key j ms := by
  induction ms with
  | nil => rfl
  | cons m ms ih => rw [put, Index.put, ih]

end Json

/-! ## Writing integers -/

/-- A step that succeeds exactly if all the integers it writes are safe, and reports one that is not. -/
def Settles {α : Type} (x : Except CanonicalFault α) (ns : List Int) : Prop :=
  (∃ a, x = .ok a) ∧ (∀ n ∈ ns, IsSafe n) ∨ ∃ n ∈ ns, ¬ IsSafe n ∧ x = .error (rangeFault n)

section
variable {α β : Type} {x : Except CanonicalFault α} {f : α → Except CanonicalFault β} {ns ms : List Int}

theorem Settles.ok {a : α} : Settles (.ok a) [] := .inl ⟨⟨a, rfl⟩, by simp⟩

theorem Settles.bind (hx : Settles x ns) (hf : ∀ a, Settles (f a) ms) : Settles (x >>= f) (ns ++ ms) := by
  rcases hx with ⟨⟨a, rfl⟩, hns⟩ | ⟨n, hn, hunsafe, rfl⟩
  · rw [ok_bind]
    rcases hf a with ⟨hb, hms⟩ | ⟨n, hn, hunsafe⟩
    · exact .inl ⟨hb, List.forall_mem_append.mpr ⟨hns, hms⟩⟩
    · exact .inr ⟨n, List.mem_append_right _ hn, hunsafe⟩
  · exact .inr ⟨n, List.mem_append_left _ hn, hunsafe, rfl⟩

theorem Settles.result {g : α → β} (hx : Settles x ns) : Settles (do return g (← x)) ns := by
  simpa using hx.bind (f := fun a => .ok (g a)) fun _ => .ok

theorem settles_canonicalInt (n : Int) : Settles (canonicalInt n) [n] := by
  unfold canonicalInt
  split
  · rename_i h
    refine .inr ⟨n, by simp, fun hs => ?_, rfl⟩
    unfold IsSafe at hs
    omega
  · rename_i h
    refine .inl ⟨⟨_, rfl⟩, ?_⟩
    simp only [List.mem_singleton, forall_eq, IsSafe]
    omega

end

namespace Json

mutual

theorem canonical_settles : ∀ j : Json, Settles j.canonical j.integers
  | null => .ok
  | bool _ => .ok
  | int n => settles_canonicalInt n
  | float _ => .ok
  | text _ => .ok
  | list items => (canonicalItems_settles items).result
  | mapping ms => (canonicalMembers_settles ms).result

theorem canonicalItems_settles : ∀ items : List Json, Settles (canonicalItems items) (itemIntegers items)
  | [] => .ok
  | j :: rest => (canonical_settles j).bind fun _ => (canonicalItems_settles rest).result

theorem canonicalMembers_settles : ∀ ms : List (String × Json), Settles (canonicalMembers ms) (memberIntegers ms)
  | [] => .ok
  | (_, j) :: rest => (canonical_settles j).bind fun _ => (canonicalMembers_settles rest).result

end

end Json

/-! ## Values that can be written -/

def Value.Writes (v : Value) (ns : List Int) : Prop := ∃ j, v.toJson = .ok j ∧ ∀ n, n ∈ j.integers ↔ n ∈ ns

def Scalar.integers : Scalar → List Int
  | int n => [n]
  | _ => []

theorem Scalar.writes {s : Scalar} {j : Json} (h : s.toJson = .ok j) : (Value.scalar s).Writes s.integers := by
  refine ⟨j, h, fun n => ?_⟩
  cases s with
  | float x =>
    simp only [toJson] at h
    split at h
    · cases h
      simp [Json.integers, integers]
    · cases h
  | bytes bs => cases h
  | _ =>
    cases h
    simp [Json.integers, integers]

theorem stableHash_settles {v : Value} {ns : List Int} (h : v.Writes ns) : Settles (stableHash v) ns := by
  obtain ⟨j, hj, hns⟩ := h
  have hc : canonicalJson v = do return String.ofList (← j.canonical) := by rw [canonicalJson, hj, ok_bind]
  unfold stableHash
  rcases (Json.canonical_settles j).result (g := String.ofList) with ⟨⟨t, ht⟩, hsafe⟩ | ⟨n, hn, hunsafe, ht⟩
  · rw [hc, ht]
    exact .inl ⟨⟨_, rfl⟩, fun n hn => hsafe n ((hns n).mpr hn)⟩
  · rw [hc, ht]
    exact .inr ⟨n, (hns n).mp hn, hunsafe, rfl⟩

end Workflow
